import NiffyInsure.ClaimStep
import NiffyInsure.Trace

/-!
# The claims pause

`pause_claims` is to stop the claims engine: while the flag is set, no entrypoint of the claims
group other than `withdraw_claim` may change a claim, a vote or a token balance.  Nine of the
fourteen entrypoints read the flag, and `commit_vote`, which does not, stores nothing but a
sealed ballot.  `reveal_vote`, `process_claim`, `disburse_installment` and
`process_payout_timeout` never look at the flag.

* `not_exec_of_guarded`: a guarded entrypoint does not succeed while the flag is set.
* `not_frozen_of_exec`: an unguarded one, wherever it succeeds, changes a claim or a vote.
* `frozen_iff_of_paused`: the engine is frozen for a call exactly when its entrypoint is not one
  of the four.
-/

namespace NiffyInsure

open Machine

/-- The claims group of the pause matrix, without `withdraw_claim`. -/
def ClaimCall.inClaimsGroup : ClaimCall → Bool
  | .fileClaim .. | .voteOnClaim .. | .commitVote .. | .revealVote .. | .finalizeClaim ..
  | .processDeadline .. | .finalizeExpiredBatch .. | .openAppeal .. | .voteOnAppeal ..
  | .finalizeAppeal .. | .addClaimEvidence .. | .processClaim .. | .disburseInstallment ..
  | .processPayoutTimeout .. => true
  | _ => false

/-- The entrypoints that read the claims flag. -/
def ClaimCall.readsPause : ClaimCall → Bool
  | .fileClaim .. | .voteOnClaim .. | .finalizeClaim .. | .processDeadline ..
  | .finalizeExpiredBatch .. | .openAppeal .. | .voteOnAppeal .. | .finalizeAppeal ..
  | .addClaimEvidence .. => true
  | _ => false

/-- The entrypoints that act on claims and votes without reading the claims flag. -/
def ClaimCall.ignoresPause : ClaimCall → Bool
  | .revealVote .. | .processClaim .. | .disburseInstallment .. | .processPayoutTimeout .. => true
  | _ => false

/-- No claim record, no vote and no token balance has changed. -/
structure EngineFrozen (s s' : State) : Prop where
  claims : ∀ id, s'.getClaim id = s.getClaim id
  votes : ∀ id voter, s'.getVote id voter = s.getVote id voter
  appealVotes : ∀ id voter, s'.getAppealVote id voter = s.getAppealVote id voter
  balance : s'.balance = s.balance

/-- No sealed ballot of the commit phase has changed. -/
def SealedSame (s s' : State) : Prop :=
  ∀ id voter, s'.get (.voteCommitment id voter) = s.get (.voteCommitment id voter)

section Pause

variable {env : Env} {s s' : State}

theorem Frame.frozen {ks : List Kind} (h : Frame ks s s') (hclaim : ks.contains .claim = false)
    (hvote : ks.contains .vote = false) (happeal : ks.contains .appealVote = false)
    (hcash : ks.contains .cash = false) : EngineFrozen s s' where
  claims := fun id => h.get (.claim id) hclaim
  votes := fun id voter => h.get (.vote id voter) hvote
  appealVotes := fun id voter => h.get (.appealVote id voter) happeal
  balance := h.balance hcash

/-! ## The guarded entrypoints -/

theorem claimsPaused_of_assert {α : Type} {f : Unit → Result α} {a : α}
    (h : (s.assertClaimsNotPaused >>= f) = .ok a) : s.getPauseFlags.claimsPaused = false := by
  obtain ⟨u, hguard, h⟩ := bind_eq_ok.mp h
  simp only [State.assertClaimsNotPaused, ensure_eq_ok, Bool.or_eq_false_iff] at hguard
  exact hguard.2

theorem claimsPaused_of_ensure {α : Type} {f : Unit → Result α} {a : α}
    (h : (ensure (s.getPauseFlags.claimsPaused = false) (.error .calculatorPaused) >>= f) = .ok a) :
    s.getPauseFlags.claimsPaused = false := by
  obtain ⟨u, hguard, h⟩ := bind_eq_ok.mp h
  exact ensure_eq_ok.mp hguard

theorem claimsPaused_of_guarded {c : ClaimCall} (hc : c.readsPause = true)
    (h : c.exec env s = .ok s') : s.getPauseFlags.claimsPaused = false := by
  cases c with
  | fileClaim holder policyId amount details evidence expectedNonce =>
    obtain ⟨-, -, h⟩ := bind_eq_ok.mp h
    obtain ⟨id, h⟩ := dropValue_eq_ok.mp h
    exact claimsPaused_of_assert h
  | voteOnClaim voter claimId vote =>
    obtain ⟨-, -, h⟩ := bind_eq_ok.mp h
    obtain ⟨st, h⟩ := dropValue_eq_ok.mp h
    exact claimsPaused_of_assert h
  | voteOnAppeal voter claimId vote =>
    obtain ⟨-, -, h⟩ := bind_eq_ok.mp h
    obtain ⟨st, h⟩ := dropValue_eq_ok.mp h
    exact claimsPaused_of_assert h
  | finalizeClaim claimId =>
    obtain ⟨st, h⟩ := dropValue_eq_ok.mp h
    exact claimsPaused_of_assert h
  | finalizeAppeal claimId =>
    obtain ⟨st, h⟩ := dropValue_eq_ok.mp h
    exact claimsPaused_of_assert h
  | addClaimEvidence claimant claimId newEvidence =>
    obtain ⟨-, -, h⟩ := bind_eq_ok.mp h
    exact claimsPaused_of_assert h
  | openAppeal claimant claimId =>
    -- the deadline of the appeal is computed before the guard
    obtain ⟨-, -, h⟩ := bind_eq_ok.mp h
    obtain ⟨deadline, -, h⟩ := bind_eq_ok.mp h
    exact claimsPaused_of_assert h
  | processDeadline claimId =>
    obtain ⟨st, h⟩ := dropValue_eq_ok.mp h
    exact claimsPaused_of_ensure h
  | finalizeExpiredBatch claimIds =>
    obtain ⟨n, m, h⟩ := map_batch_eq_ok.mp h
    exact claimsPaused_of_ensure h
  | _ => cases hc

/-- **A guarded entrypoint does not succeed while the flag is set.** -/
theorem not_exec_of_guarded {c : ClaimCall} (hc : c.readsPause = true)
    (hpaused : s.getPauseFlags.claimsPaused = true) : ¬ c.exec env s = .ok s' := by
  intro h
  rw [claimsPaused_of_guarded hc h] at hpaused
  cases hpaused

/-! ## The unguarded entrypoints -/

theorem moveTo_ne_self {claim : Claim} {status : ClaimStatus} {now : Nat}
    (h : claim.status ≠ status) : claim.moveTo status now ≠ claim := by
  intro heq
  exact h (congrArg Claim.status heq).symm

theorem processed_status (claim : Claim) (now : Nat) (failed : Bool) :
    (claim.processed now failed).status = .paid ∨
      (claim.processed now failed).status = .payoutFailed := by
  cases failed with
  | false => exact .inl rfl
  | true => exact .inr rfl

theorem processed_claimId (claim : Claim) (now : Nat) (failed : Bool) :
    (claim.processed now failed).claimId = claim.claimId := by
  cases failed with
  | false => rfl
  | true => rfl

theorem not_frozen_of_write {id : Nat} {claim claim' : Claim} (hclaim : s.getClaim id = some claim)
    (hid : id = claim'.claimId) (hne : claim' ≠ claim)
    (hwrite : SameKind .claim (s.setClaim claim') s') : ¬ EngineFrozen s s' := by
  intro h
  have hget := h.claims id
  rw [getClaim_of_write_self hwrite hid, hclaim] at hget
  exact hne (Option.some.inj hget)

/-- **An unguarded entrypoint, wherever it succeeds, changes a claim or a vote.** -/
theorem not_frozen_of_exec {c : ClaimCall} (hkeys : s.ClaimsKeyed) (hc : c.ignoresPause = true)
    (h : c.exec env s = .ok s') : ¬ EngineFrozen s s' := by
  have hran := ran_of_exec h
  cases c with
  | revealVote voter claimId vote salt =>
    obtain ⟨claim, -, hnone, -, hvote⟩ := revealVote_eq_ok hran
    intro hfrozen
    have hget : s'.getVote claimId voter = (s.setVote claimId voter vote).getVote claimId voter :=
      hvote _ rfl
    rw [hfrozen.votes claimId voter, hnone] at hget
    simp [State.setVote] at hget
  | processClaim claimId =>
    obtain ⟨claim, failed, hclaim, hst, -, -, hwrite, -⟩ := processClaim_eq_ok hran
    refine not_frozen_of_write hclaim ?_ ?_ hwrite
    · rw [processed_claimId]
      exact (hkeys claimId claim hclaim).1.symm
    · intro heq
      have hst' := processed_status claim s.sequence failed
      rw [heq] at hst'
      rcases hst with hst | hst
      · simp [hst] at hst'
      · simp [hst] at hst'
  | processPayoutTimeout claimId =>
    obtain ⟨st, hran⟩ := hran
    obtain ⟨claim, hclaim, hst, hwrite, -⟩ := processPayoutTimeout_eq_ok hran
    refine not_frozen_of_write hclaim ?_ ?_ hwrite
    · exact (hkeys claimId claim hclaim).1.symm
    · exact moveTo_ne_self (by simp [hst])
  | disburseInstallment claimId amount =>
    obtain ⟨claim, p, hclaim, hst, hpos, -, -, -, -, hdone, hopen⟩ := disburseInstallment_eq_ok hran
    have hpaid : claim.paidAmount + amount ≠ claim.paidAmount := by omega
    by_cases hcomp : claim.Completes amount
    · refine not_frozen_of_write hclaim ?_ ?_ (hdone hcomp).1
      · exact (hkeys claimId claim hclaim).1.symm
      · intro heq
        exact hpaid (congrArg Claim.paidAmount heq)
    · refine not_frozen_of_write hclaim ?_ ?_ (hopen hcomp).1
      · exact (hkeys claimId claim hclaim).1.symm
      · intro heq
        exact hpaid (congrArg Claim.paidAmount heq)
  | _ => cases hc

/-! ## Sealed ballots -/

theorem sealedFrozen_of_exec {c : ClaimCall} (hc : c.kinds.contains .commitReveal = false)
    (h : c.exec env s = .ok s') : SealedSame s s' :=
  fun id voter => (frame_claimCall h).get (.voteCommitment id voter) hc

theorem not_sealedFrozen_of_commitVote {voter : Address} {claimId : Nat} {commitment : Bytes32}
    (h : commitVote env s voter claimId commitment = .ok s') : ¬ SealedSame s s' := by
  simp only [commitVote, bind_eq_ok, ensure_eq_ok, pure_eq_ok] at h
  obtain ⟨-, -, phases, -, -, -, u, hnone, rfl⟩ := h
  intro hfrozen
  have hget := hfrozen claimId voter
  rw [hnone] at hget
  simp at hget

end Pause

/-- The call is `commit_vote`. -/
def ClaimCall.isCommitVote : ClaimCall → Bool
  | .commitVote .. => true
  | _ => false

/-- **The claims pause freezes a call exactly when its entrypoint is none of `reveal_vote`,
`process_claim`, `disburse_installment` and `process_payout_timeout`.**  The sealed ballots are
frozen as well, except for `commit_vote`. -/
theorem frozen_iff_of_paused {host : Host} {env : Env} {s s' : State} {c : ClaimCall}
    (hreach : (contract host).Reach always s) (hpaused : s.getPauseFlags.claimsPaused = true)
    (hgroup : c.inClaimsGroup = true)
    (hstep : (contract host).step s (.call env (.claim c)) s') :
    (EngineFrozen s s' ↔ c.ignoresPause = false) ∧ (SealedSame s s' ↔ c.isCommitVote = false) := by
  obtain ⟨-, h⟩ := hstep
  change c.exec env s = .ok s' at h
  have hguarded : c.readsPause = false := by
    by_contra hreads
    exact not_exec_of_guarded (by simpa using hreads) hpaused h
  have hkeys := claimsKeyed_of_reach hreach
  cases c with
  | commitVote voter claimId commitment =>
    refine ⟨⟨fun _ => rfl, fun _ => ?_⟩, ⟨fun hsealed => ?_, fun hc => by cases hc⟩⟩
    · exact (frame_claimCall h).frozen rfl rfl rfl rfl
    · exact absurd hsealed (not_sealedFrozen_of_commitVote h)
  | revealVote | processClaim | disburseInstallment | processPayoutTimeout =>
    refine ⟨⟨fun hfrozen => ?_, fun hc => by cases hc⟩, ⟨fun _ => rfl, fun _ => ?_⟩⟩
    · exact absurd hfrozen (not_frozen_of_exec hkeys rfl h)
    · exact sealedFrozen_of_exec rfl h
  | fileClaim | voteOnClaim | finalizeClaim | processDeadline | finalizeExpiredBatch | openAppeal
  | voteOnAppeal | finalizeAppeal | addClaimEvidence => cases hguarded
  | _ => cases hgroup

/-- The admin pauses the claims engine. -/
def demoPauseClaims : Label := demoCall (.setting (.pauseClaims adminAddress .securityIncident))

/-- Account 1 files a claim of 1000, account 2 approves it, and the claims are paused. -/
def pausedTrace : List Label :=
  demoSetup ++ [demoFile 1 1 1000, demoCall (.claim (.voteOnClaim 2 1 .approve)),
    demoCall (.claim (.setCommitRevealPhases 1 2000 3000)), demoPauseClaims]

/-- A commitment that is stored during the pause changes no claim, no vote and no balance. -/
theorem frozen_commit_demo :
    ∃ s s', (contract demoHost).Reach always s ∧ s.getPauseFlags.claimsPaused = true ∧
      (contract demoHost).step s (demoCall (.claim (.commitVote 1 1 demoCommitment))) s' ∧
      EngineFrozen s s' := by
  obtain ⟨s, s', hreach, hstep, hval⟩ := exists_of_followCall always_of_noCheck
    (deployed 5000) pausedTrace (c := .claim (.commitVote 1 1 demoCommitment))
    (f := fun s _ => s.getPauseFlags.claimsPaused) (a := true) (fresh_deployed (by decide))
    (by simp [pausedTrace, demoPauseClaims, demoSetup, demoInit, demoBind, demoFile])
    (by decide +kernel)
  exact ⟨s, s', hreach, hval, hstep, (frozen_iff_of_paused hreach hval rfl hstep).1.mpr rfl⟩

/-- **Money leaves the contract while the claims are paused.**  `disburse_installment` pays 400 of
the approved claim during the pause. -/
theorem installment_paid_while_paused :
    ∃ s s', (contract demoHost).Reach always s ∧ s.getPauseFlags.claimsPaused = true ∧
      (contract demoHost).step s (demoCall (.claim (.disburseInstallment 1 400))) s' ∧
      s.balance assetAddress contractAddress = s'.balance assetAddress contractAddress + 400 ∧
      ¬ EngineFrozen s s' := by
  obtain ⟨s, s', hreach, hstep, hval⟩ := exists_of_followCall always_of_noCheck
    (deployed 5000) pausedTrace (c := .claim (.disburseInstallment 1 400))
    (f := fun s s' => (s.getPauseFlags.claimsPaused, decide
      (s.balance assetAddress contractAddress = s'.balance assetAddress contractAddress + 400)))
    (a := (true, true)) (fresh_deployed (by decide))
    (by simp [pausedTrace, demoPauseClaims, demoSetup, demoInit, demoBind, demoFile])
    (by decide +kernel)
  simp only [Prod.mk.injEq, decide_eq_true_eq] at hval
  obtain ⟨hpaused, hbal⟩ := hval
  refine ⟨s, s', hreach, hpaused, hstep, hbal, ?_⟩
  intro hfrozen
  rw [hfrozen.balance] at hbal
  omega

end NiffyInsure
