import NiffyInsure.Lib.Sweep
import NiffyInsure.Strikes
import NiffyInsure.VoteOrder
import NiffyInsure.Trace
import Mathlib.Data.Set.Card

/-!
# The batch keeper

`finalize_expired_batch` makes the checks of `process_deadline` in another order, and passes over
the claims that fail them.  What a finalisation writes of a claim, of the strikes of its policy and
of its flag is a visit of a `Sweep` (`board_finalize`), and these marks commute.

* `finalizeBatchLoop_sweep`: the loop is the calls of `process_deadline` one after the other, and a
  sweep of the board of claims.
* `fits_of_finalizeBatchLoop`: the loop goes through only when the ballots of every claim that it
  finalizes add up within `u32`.
* `batchExact_iff`: this is all that can hold up a batch.
-/

namespace NiffyInsure

open Machine

/-! ## One by one -/

section OneByOne

variable (s : State)

/-- Call `process_deadline`, and ignore its error. -/
def State.afterDeadline (claimId : Nat) : State :=
  match processDeadline s claimId with
  | .ok (_, s') => s'
  | .error _ => s

/-- Call `process_deadline` on each id in order. -/
def State.processEach (claimIds : List Nat) : State := claimIds.foldl State.afterDeadline s

end OneByOne

/-! ## The board of claims -/

/-- The policy that a claim is on. -/
def Claim.policyKey (claim : Claim) : Address × Nat := (claim.claimant, claim.policyId)

/-- The strikes of each policy, and the flags of the open claims. -/
@[ext] structure Marks where
  strikes : Address × Nat → Option Nat
  flags : Address × Nat → Bool

namespace State

variable (s : State)

/-- What the base rounds of the claims leave. -/
def board : Sweep.Board Nat Claim Marks where
  items := s.getClaim
  marks := {
    strikes := fun k => (s.getPolicy k.1 k.2).map (·.strikeCount)
    flags := fun k => s.hasOpenClaim k.1 k.2 }

/-- The base round of the claim is over, and the claim is not decided. -/
def isPastDue (claim : Claim) : Bool :=
  claim.status == .processing && isClaimPastVotingDeadline s.sequence claim.votingDeadlineLedger

/-- The record of a claim that is decided after the deadline. -/
def decidedClaim (claimId : Nat) (claim : Claim) : Claim :=
  match claim.decide (s.deadlineOutcome claimId claim) s.sequence true with
  | .ok claim' => claim'
  | .error _ => claim.moveTo (s.deadlineOutcome claimId claim) s.sequence

/-- A decided claim clears the flag of its policy, and strikes it if the claim is rejected. -/
def deadlineMarks (claimId : Nat) (claim : Claim) (m : Marks) : Marks where
  strikes :=
    if s.deadlineOutcome claimId claim = .rejected then
      Sweep.alter m.strikes claim.policyKey (Option.map fun n => saturatingAdd32 n 1)
    else m.strikes
  flags := Sweep.alter m.flags claim.policyKey fun _ => false

/-- The deadline of the base round, in the ledger of `s` and with its quorums. -/
def deadlineRule : Sweep.Rule Nat Claim Marks where
  due := s.isPastDue
  decided := s.decidedClaim
  effect := s.deadlineMarks

variable {s}

theorem isPastDue_iff {claim : Claim} : s.isPastDue claim = true ↔
    claim.status = .processing ∧ claim.votingDeadlineLedger < s.sequence := by
  simp [isPastDue, isClaimPastVotingDeadline]

theorem status_decidedClaim (claimId : Nat) (claim : Claim) :
    (s.decidedClaim claimId claim).status = s.deadlineOutcome claimId claim := by
  unfold decidedClaim
  split
  · rename_i claim' hdec
    obtain ⟨x, y, z, rfl⟩ := decide_eq_ok hdec
    rfl
  · rfl

theorem decided_ne_processing (claimId : Nat) (claim : Claim) :
    (s.decidedClaim claimId claim).status ≠ .processing := by
  rw [status_decidedClaim]
  rcases s.deadlineOutcome_cases claimId claim with h | h <;> rw [h] <;> decide

theorem settles_deadlineRule : s.deadlineRule.Settles := by
  intro claimId claim _
  have hst := s.decided_ne_processing claimId claim
  show s.isPastDue (s.decidedClaim claimId claim) = false
  unfold isPastDue
  rw [beq_eq_false_iff_ne.mpr hst, Bool.false_and]

theorem commutes_deadlineRule : s.deadlineRule.Commutes := by
  intro i j a c m
  apply Marks.ext
  · show (s.deadlineMarks i a (s.deadlineMarks j c m)).strikes =
      (s.deadlineMarks j c (s.deadlineMarks i a m)).strikes
    unfold deadlineMarks
    by_cases hi : s.deadlineOutcome i a = .rejected
    · by_cases hj : s.deadlineOutcome j c = .rejected
      · simp only [if_pos hi, if_pos hj]
        exact Sweep.alter_comm _ fun _ _ => rfl
      · simp only [if_pos hi, if_neg hj]
    · simp only [if_neg hi]
  · show Sweep.alter (Sweep.alter m.flags c.policyKey fun _ => false) a.policyKey (fun _ => false) =
      Sweep.alter (Sweep.alter m.flags a.policyKey fun _ => false) c.policyKey fun _ => false
    exact Sweep.alter_comm _ fun _ _ => rfl

theorem isDue_board {t : State} (hseq : t.sequence = s.sequence) (claimId : Nat) :
    s.deadlineRule.isDue t.board claimId = t.isBatchEligible claimId := by
  unfold Sweep.Rule.isDue isBatchEligible
  show (t.getClaim claimId).any s.isPastDue = _
  cases t.getClaim claimId with
  | none => rfl
  | some claim => rw [Option.any_some, isPastDue, hseq]

end State

/-! ## One claim -/

section OneClaim

variable {s t t' : State} {claimId : Nat} {st : ClaimStatus}

/-- `t` is reached from `s` by finalisations in its ledger. -/
structure MidBatch (s t : State) : Prop where
  frame : Frame roundKinds s t
  keyed : t.ClaimsKeyed
  registry : t.RegistrySound

theorem MidBatch.deadlineOutcome (hm : MidBatch s t) (claimId : Nat) (claim : Claim) :
    t.deadlineOutcome claimId claim = s.deadlineOutcome claimId claim := by
  unfold State.deadlineOutcome
  rw [effectiveQuorumBps_of_frame hm.frame rfl rfl rfl]

theorem MidBatch.finalize (hm : MidBatch s t) (h : finalizeClaimInner t claimId = .ok (st, t')) :
    MidBatch s t' where
  frame := hm.frame.trans (frame_finalizeClaimInner h)
  keyed := claimsKeyed_of_rewrites (rewrites_of_finalizeClaimInner h)
    ((frame_finalizeClaimInner h).sameKind rfl) hm.keyed
  registry := by
    obtain ⟨claim, claim', -, -, -, -, -, -, hclose⟩ := finalizeClaimInner_eq_ok h
    exact registryKept_sound.closeRound hclose hm.registry

theorem strikes_of_strikesAt {holder : Address} {policyId : Nat}
    (h : StrikesAt t t' holder policyId) :
    t'.board.marks.strikes = Sweep.alter t.board.marks.strikes (holder, policyId)
      (Option.map fun n => saturatingAdd32 n 1) := by
  funext k
  obtain ⟨a, id⟩ := k
  rw [Sweep.alter_apply]
  show (t'.getPolicy a id).map (·.strikeCount) =
    if (a, id) = (holder, policyId) then
      ((t.getPolicy a id).map (·.strikeCount)).map fun n => saturatingAdd32 n 1
    else (t.getPolicy a id).map (·.strikeCount)
  unfold StrikesAt at h
  split at h
  · rename_i hnone
    rw [getPolicy_of_same h]
    split
    · rename_i hkey
      obtain ⟨rfl, rfl⟩ := Prod.mk.inj hkey
      rw [hnone]
      rfl
    · rfl
  · rename_i p hp
    rw [getPolicy_of_write h]
    by_cases hkey : a = holder ∧ id = policyId
    · obtain ⟨rfl, rfl⟩ := hkey
      rw [if_pos ⟨rfl, rfl⟩, if_pos rfl, hp, Option.map_some, Option.map_some, Option.map_some,
        strikeCount_struck]
    · rw [if_neg hkey, if_neg fun heq => hkey (Prod.mk.inj heq)]

theorem flags_of_setOpenClaim {holder : Address} {policyId : Nat}
    (h : SameKind .openClaim (t.setOpenClaim holder policyId false) t') :
    t'.board.marks.flags = Sweep.alter t.board.marks.flags (holder, policyId) fun _ => false := by
  funext k
  obtain ⟨a, id⟩ := k
  rw [Sweep.alter_apply]
  show t'.hasOpenClaim a id = if (a, id) = (holder, policyId) then false else t.hasOpenClaim a id
  rw [State.hasOpenClaim, h (.openClaim a id) rfl]
  by_cases hkey : a = holder ∧ id = policyId
  · obtain ⟨rfl, rfl⟩ := hkey
    rw [if_pos rfl, State.get_set_self]
    rfl
  · rw [if_neg fun heq => hkey (Prod.mk.inj heq), State.get_set_of_ne _ _ (by simpa using hkey)]

/-- **A finalisation is a visit of the board.** -/
theorem board_finalize (hm : MidBatch s t) (hel : t.isBatchEligible claimId = true)
    (h : finalizeClaimInner t claimId = .ok (st, t')) :
    t'.board = s.deadlineRule.visit t.board claimId := by
  obtain ⟨claim, hclaim, hproc, hpast⟩ := isBatchEligible_iff.mp hel
  obtain ⟨c, claim', hc, -, -, -, -, hdec, hclose⟩ := finalizeClaimInner_eq_ok h
  rw [hclaim] at hc
  cases hc
  have hseq : t.sequence = s.sequence := hm.frame.sequence
  have hdue : s.isPastDue claim = true := by
    rw [State.isPastDue_iff, ← hseq]
    exact ⟨hproc, of_decide_eq_true hpast⟩
  rw [hm.deadlineOutcome, hseq] at hdec
  have hdecided : s.decidedClaim claimId claim = claim' := by
    unfold State.decidedClaim
    rw [hdec]
  obtain ⟨x, y, z, hclosed⟩ := decide_eq_ok hdec
  obtain ⟨hrec, hflag, hstrike, hkeep⟩ := closeRound_eq_ok hclose
  have hid : claim'.claimId = claimId := by
    rw [hclosed]
    exact (hm.keyed _ _ hclaim).1
  have hkey : (claim'.claimant, claim'.policyId) = claim.policyKey := by
    rw [hclosed]
    rfl
  have hstatus : claim'.status = s.deadlineOutcome claimId claim := by
    rw [hclosed]
    rfl
  rw [Sweep.Rule.visit_of_due hclaim hdue]
  apply Sweep.Board.ext
  · funext id
    show t'.getClaim id = Function.update t.getClaim claimId
      (some (s.decidedClaim claimId claim)) id
    rw [Function.update_apply, getClaim_of_write hrec, hid, hdecided]
  · apply Marks.ext
    · show _ = (s.deadlineMarks claimId claim t.board.marks).strikes
      unfold State.deadlineMarks
      rw [← hstatus, ← hkey]
      by_cases hrej : claim'.status = .rejected
      · rw [if_pos hrej]
        exact strikes_of_strikesAt (hstrike hrej)
      · rw [if_neg hrej]
        funext k
        show (t'.getPolicy k.1 k.2).map (·.strikeCount) = (t.getPolicy k.1 k.2).map (·.strikeCount)
        rw [getPolicy_of_same (hkeep hrej)]
    · show _ = (s.deadlineMarks claimId claim t.board.marks).flags
      unfold State.deadlineMarks
      rw [← hkey]
      exact flags_of_setOpenClaim hflag

theorem afterDeadline_of_eligible (hpause : t.getPauseFlags.claimsPaused = false)
    (hel : t.isBatchEligible claimId = true) (h : finalizeClaimInner t claimId = .ok (st, t')) :
    t.afterDeadline claimId = t' := by
  obtain ⟨claim, hclaim, hproc, -⟩ := isBatchEligible_iff.mp hel
  have hok : processDeadline t claimId = .ok (st, t') := by
    simp only [processDeadline, bind_eq_ok, ensure_eq_ok, okOr_eq_ok]
    refine ⟨(), hpause, claim, hclaim, (), ?_, (), hproc, h⟩
    rw [hproc]
    rfl
  rw [State.afterDeadline, hok]

theorem afterDeadline_of_not_eligible (hel : t.isBatchEligible claimId = false) :
    t.afterDeadline claimId = t := by
  unfold State.afterDeadline
  split
  · rename_i st t' hok
    simp only [processDeadline, bind_eq_ok, ensure_eq_ok, okOr_eq_ok] at hok
    obtain ⟨-, -, claim, hclaim, -, -, -, hproc, h⟩ := hok
    obtain ⟨c, -, hc, -, hpast, -⟩ := finalizeClaimInner_eq_ok h
    rw [hclaim] at hc
    cases hc
    have htrue : t.isBatchEligible claimId = true :=
      isBatchEligible_iff.mpr ⟨claim, hclaim, hproc, hpast⟩
    rw [hel] at htrue
    cases htrue
  · rfl

end OneClaim

/-! ## The loop -/

section Loop

variable {s t t' : State}

/-- The ballots of every claim of the list that is due add up within `u32`. -/
def State.BallotsFit (s t : State) (claimIds : List Nat) : Prop :=
  ∀ id ∈ claimIds, ∀ claim, t.getClaim id = some claim → s.isPastDue claim = true →
    claim.approveVotes + claim.rejectVotes ≤ U32_MAX

theorem due_of_visit {claimId id : Nat} {claim : Claim}
    (hboard : t'.board = s.deadlineRule.visit t.board claimId)
    (hclaim : t'.getClaim id = some claim)
    (hdue : s.isPastDue claim = true) : t.getClaim id = some claim ∧ id ≠ claimId := by
  have hitem : (s.deadlineRule.visit t.board claimId).items id = some claim := by
    rw [← hboard]
    exact hclaim
  by_cases hid : id = claimId
  · subst hid
    have hfalse := Sweep.Rule.isDue_visit_self (b := t.board) (i := id) s.settles_deadlineRule
    rw [Sweep.Rule.isDue_of_some hitem] at hfalse
    rw [show s.deadlineRule.due claim = true from hdue] at hfalse
    cases hfalse
  · rw [Sweep.Rule.items_visit_of_ne hid] at hitem
    exact ⟨hitem, hid⟩

/-- **The loop is the calls one after the other**, and a sweep of the board, when the ballots
fit. -/
theorem finalizeBatchLoop_sweep (hpause : s.getPauseFlags.claimsPaused = false)
    (hwindows : WindowsFit s.sequence) (ids : List Nat) :
    ∀ (t : State) (n m : Nat), MidBatch s t → s.BallotsFit t ids →
      ∃ t', finalizeBatchLoop ids t n m =
          .ok (n + s.deadlineRule.processed ids t.board,
            m + (ids.length - s.deadlineRule.processed ids t.board), t') ∧
        t' = t.processEach ids ∧ t'.board = s.deadlineRule.sweep t.board ids ∧ MidBatch s t' := by
  induction ids with
  | nil =>
    intro t n m hm _
    exact ⟨t, rfl, rfl, rfl, hm⟩
  | cons id rest ih =>
    intro t n m hm hfit
    have hseq : t.sequence = s.sequence := hm.frame.sequence
    have hdue := s.isDue_board hseq id
    have hle := Sweep.Rule.processed_le (r := s.deadlineRule) rest (s.deadlineRule.visit t.board id)
    cases hel : t.isBatchEligible id with
    | true =>
      obtain ⟨claim, hclaim, hproc, hpast⟩ := isBatchEligible_iff.mp hel
      have hpastDue : s.isPastDue claim = true := by
        rw [State.isPastDue_iff, ← hseq]
        exact ⟨hproc, of_decide_eq_true hpast⟩
      obtain ⟨st, t₁, hfin⟩ := exists_finalizeClaimInner hclaim (by rw [hproc]; rfl) hpast
        (hfit id List.mem_cons_self claim hclaim hpastDue) hm.registry.bucketsFilled
        (by rwa [hseq])
      have hboard := board_finalize hm hel hfin
      have hpause' : t.getPauseFlags.claimsPaused = false := by
        rw [State.getPauseFlags, hm.frame.get .paused rfl]
        exact hpause
      obtain ⟨t', hloop, hfold, hsweep, hmid⟩ := ih t₁ (n + 1) m (hm.finalize hfin) (by
        intro x hx c hc hd
        exact hfit x (List.mem_cons_of_mem _ hx) c (due_of_visit hboard hc hd).1 hd)
      refine ⟨t', ?_, ?_, ?_, hmid⟩
      · rw [finalizeBatchLoop, if_pos hel, hfin]
        show finalizeBatchLoop rest t₁ (n + 1) m = _
        rw [hloop, hboard, Sweep.Rule.processed, hdue, hel, if_pos rfl, List.length_cons]
        simp only [Except.ok.injEq, Prod.mk.injEq, and_true]
        omega
      · rw [hfold, State.processEach, State.processEach, List.foldl_cons,
          afterDeadline_of_eligible hpause' hel hfin]
      · rw [hsweep, hboard]
        rfl
    | false =>
      have hpass : s.deadlineRule.visit t.board id = t.board :=
        Sweep.Rule.visit_of_not_due (by rw [hdue, hel])
      obtain ⟨t', hloop, hfold, hsweep, hmid⟩ := ih t n (m + 1) hm
        fun x hx => hfit x (List.mem_cons_of_mem _ hx)
      refine ⟨t', ?_, ?_, ?_, hmid⟩
      · rw [hpass] at hle
        rw [finalizeBatchLoop, if_neg (by rw [hel]; decide), hloop, Sweep.Rule.processed, hdue, hel,
          hpass, if_neg (by decide), List.length_cons]
        simp only [Except.ok.injEq, Prod.mk.injEq, and_true]
        omega
      · rw [hfold, State.processEach, State.processEach, List.foldl_cons,
          afterDeadline_of_not_eligible hel]
      · rw [hsweep, Sweep.Rule.sweep, Sweep.Rule.sweep, List.foldl_cons, hpass]

/-- **The loop goes through only when the ballots fit.** -/
theorem fits_of_finalizeBatchLoop (ids : List Nat) :
    ∀ (t : State) (n m : Nat) {p q : Nat} {t' : State}, MidBatch s t →
      finalizeBatchLoop ids t n m = .ok (p, q, t') → s.BallotsFit t ids := by
  induction ids with
  | nil =>
    intro t n m p q t' _ _ id hid
    cases hid
  | cons id rest ih =>
    intro t n m p q t' hm h x hx claim hclaim hdue
    unfold finalizeBatchLoop at h
    split at h
    · rename_i hel
      obtain ⟨⟨st, t₁⟩, hfin, h⟩ := bind_eq_ok.mp h
      by_cases hxid : x = id
      · subst hxid
        obtain ⟨c, -, hc, -, -, hfit, -⟩ := finalizeClaimInner_eq_ok hfin
        rw [hclaim] at hc
        cases hc
        exact hfit
      · have hkept : t₁.getClaim x = some claim := by
          show t₁.board.items x = some claim
          rw [board_finalize hm hel hfin, Sweep.Rule.items_visit_of_ne hxid]
          exact hclaim
        have hmem : x ∈ rest := (List.mem_cons.mp hx).resolve_left hxid
        exact ih t₁ (n + 1) m (hm.finalize hfin) h x hmem claim hkept hdue
    · rename_i hel
      rcases List.mem_cons.mp hx with rfl | hmem
      · refine absurd (isBatchEligible_iff.mpr ⟨claim, hclaim, ?_⟩) hel
        rw [hm.frame.sequence]
        simpa [State.isPastDue] using hdue
      · exact ih t n (m + 1) hm h x hmem claim hclaim hdue

end Loop

/-! ## Batches -/

section Batches

variable {s t : State} {claimIds : List Nat}

/-- Two states agree on the claims, the ballots, the strikes and the flags of the open claims. -/
structure SameStanding (s t : State) : Prop where
  claims : ∀ id, t.getClaim id = s.getClaim id
  votes : ∀ id voter, t.getVote id voter = s.getVote id voter
  appealVotes : ∀ id voter, t.getAppealVote id voter = s.getAppealVote id voter
  strikes : ∀ holder id,
    (t.getPolicy holder id).map (·.strikeCount) = (s.getPolicy holder id).map (·.strikeCount)
  flags : ∀ holder id, t.hasOpenClaim holder id = s.hasOpenClaim holder id

theorem sameStanding_of_board (hboard : t.board = s.board) (hvote : SameKind .vote s t)
    (happeal : SameKind .appealVote s t) : SameStanding s t where
  claims id := congrFun (congrArg Sweep.Board.items hboard) id
  votes id voter := hvote (.vote id voter) rfl
  appealVotes id voter := happeal (.appealVote id voter) rfl
  strikes holder id := congrFun (congrArg (·.marks.strikes) hboard) (holder, id)
  flags holder id := congrFun (congrArg (·.marks.flags) hboard) (holder, id)

/-- The batch goes through, as the calls of `process_deadline` one after the other would and with a
summary at the end; it counts the claims that it takes out of `Processing`; and in another order of
the ids it goes through as well, to the same claims, ballots, strikes and flags. -/
def State.BatchExact (s : State) (claimIds : List Nat) : Prop :=
  ∃ processed skipped s',
    finalizeExpiredBatch s claimIds = .ok (processed, skipped, s') ∧
    s' = (s.processEach claimIds).emit (.batchFinalized processed skipped s.sequence) ∧
    processed + skipped = claimIds.length ∧
    processed = Set.ncard {id | s.claimStatus id = some .processing ∧
      s'.claimStatus id ≠ some .processing} ∧
    ∀ ids : List Nat, ids.Perm claimIds → ∃ p q t,
      finalizeExpiredBatch s ids = .ok (p, q, t) ∧ SameStanding s' t

theorem finalizeExpiredBatch_of_loop {p q : Nat} (hpause : s.getPauseFlags.claimsPaused = false)
    (hlen : claimIds.length ≤ BATCH_FINALIZE_MAX)
    (h : finalizeBatchLoop claimIds s 0 0 = .ok (p, q, t)) :
    finalizeExpiredBatch s claimIds = .ok (p, q, t.emit (.batchFinalized p q s.sequence)) := by
  simp only [finalizeExpiredBatch, bind_eq_ok, ensure_eq_ok, Prod.exists, pure_eq_ok]
  exact ⟨(), hpause, (), hlen, p, q, t, h, rfl⟩

/-- A sweep takes the claims of its list that are due out of `Processing`. -/
theorem leaves_processing_iff (hboard : t.board = s.deadlineRule.sweep s.board claimIds)
    (id : Nat) : (s.claimStatus id = some .processing ∧ t.claimStatus id ≠ some .processing) ↔
      id ∈ claimIds ∧ s.deadlineRule.isDue s.board id = true := by
  have hafter : t.getClaim id = if id ∈ claimIds
    then (s.getClaim id).map (s.deadlineRule.settled id)
      else s.getClaim id := by
    have := Sweep.Rule.items_sweep s.settles_deadlineRule claimIds s.board id
    rwa [← hboard] at this
  unfold State.claimStatus
  rw [hafter, Sweep.Rule.isDue_iff]
  show _ ↔ id ∈ claimIds ∧ ∃ claim, s.getClaim id = some claim ∧ s.isPastDue claim = true
  by_cases hmem : id ∈ claimIds
  · rw [if_pos hmem]
    cases hclaim : s.getClaim id with
    | none => simp
    | some claim =>
      have hsettled : s.deadlineRule.settled id claim =
          if s.isPastDue claim = true then s.decidedClaim id claim else claim := rfl
      simp only [Option.map_some, hsettled, ne_eq, Option.some.injEq, hmem, true_and,
        exists_eq_left']
      by_cases hdue : s.isPastDue claim = true
      · have hproc : claim.status = .processing := (State.isPastDue_iff.mp hdue).1
        rw [if_pos hdue]
        exact ⟨fun _ => hdue, fun _ => ⟨hproc, s.decided_ne_processing id claim⟩⟩
      · rw [if_neg hdue]
        exact ⟨fun h => absurd h.1 h.2, fun h => absurd h hdue⟩
  · rw [if_neg hmem]
    exact ⟨fun h => absurd h.1 h.2, fun h => absurd h.1 hmem⟩

/-- **A batch is exact when the ballots of the claims that it finalizes fit.** -/
theorem batchExact_of_fits (hk : s.ClaimsKeyed) (hr : s.RegistrySound)
    (hpause : s.getPauseFlags.claimsPaused = false) (hlen : claimIds.length ≤ BATCH_FINALIZE_MAX)
    (hwindows : WindowsFit s.sequence) (hfit : s.BallotsFit s claimIds) :
    s.BatchExact claimIds := by
  have hstart : MidBatch s s := ⟨.refl _ s, hk, hr⟩
  obtain ⟨t, hloop, hfold, hsweep, hmid⟩ :=
    finalizeBatchLoop_sweep hpause hwindows claimIds s 0 0 hstart hfit
  have hle := Sweep.Rule.processed_le (r := s.deadlineRule) claimIds s.board
  refine ⟨_, _, _, finalizeExpiredBatch_of_loop hpause hlen hloop, by rw [hfold], by omega, ?_, ?_⟩
  · rw [Nat.zero_add, Sweep.Rule.processed_eq s.settles_deadlineRule, ← Set.ncard_coe_finset]
    congr 1
    ext id
    rw [Finset.coe_filter, Set.mem_ofPred_eq, Set.mem_ofPred_eq, List.mem_toFinset]
    exact (leaves_processing_iff hsweep id).symm
  · intro ids hperm
    obtain ⟨t', hloop', -, hsweep', hmid'⟩ :=
      finalizeBatchLoop_sweep hpause hwindows ids s 0 0 hstart fun id hid =>
        hfit id (hperm.mem_iff.mp hid)
    refine ⟨_, _, _, finalizeExpiredBatch_of_loop hpause (by rwa [hperm.length_eq]) hloop', ?_⟩
    refine sameStanding_of_board ?_ ?_ ?_
    · show t'.board = t.board
      rw [hsweep, hsweep', Sweep.Rule.sweep_perm s.commutes_deadlineRule hperm]
    · exact (SameKind.symm (hmid.frame.sameKind rfl)).trans (hmid'.frame.sameKind rfl)
    · exact (SameKind.symm (hmid.frame.sameKind rfl)).trans (hmid'.frame.sameKind rfl)

theorem fits_of_finalizeExpiredBatch {r : Nat × Nat × State} (hk : s.ClaimsKeyed)
    (hr : s.RegistrySound) (h : finalizeExpiredBatch s claimIds = .ok r) :
    s.BallotsFit s claimIds := by
  simp only [finalizeExpiredBatch, bind_eq_ok, Prod.exists] at h
  obtain ⟨-, -, -, -, p, q, t, hloop, -⟩ := h
  exact fits_of_finalizeBatchLoop claimIds s 0 0 ⟨.refl _ s, hk, hr⟩ hloop

/-- **A batch is exact exactly when the ballots of each claim that it finalizes add up within
`u32`**, in every reached state with claims not paused, in a ledger whose windows fit. -/
theorem batchExact_iff {host : Host} (hreach : (contract host).Reach always s)
    (hpause : s.getPauseFlags.claimsPaused = false) (hlen : claimIds.length ≤ BATCH_FINALIZE_MAX)
    (hwindows : WindowsFit s.sequence) :
    s.BatchExact claimIds ↔
      ∀ id ∈ claimIds, ∀ claim, s.getClaim id = some claim → claim.status = .processing →
        claim.votingDeadlineLedger < s.sequence →
        claim.approveVotes + claim.rejectVotes ≤ U32_MAX := by
  have hk := claimsKeyed_of_reach hreach
  have hr := registrySound_of_reach hreach
  constructor
  · rintro ⟨p, q, s', hok, -⟩ id hid claim hclaim hproc hpast
    exact fits_of_finalizeExpiredBatch hk hr hok id hid claim hclaim
      (State.isPastDue_iff.mpr ⟨hproc, hpast⟩)
  · intro hfit
    refine batchExact_of_fits hk hr hpause hlen hwindows fun id hid claim hclaim hdue => ?_
    obtain ⟨hproc, hpast⟩ := State.isPastDue_iff.mp hdue
    exact hfit id hid claim hclaim hproc hpast

/-- A batch with an unknown id and a repeated one: two of its claims are over. -/
theorem batchExact_iff_two_due :
    ∃ s, (contract demoHost).Reach always s ∧ s.isBatchEligible 1 = true ∧
      s.isBatchEligible 2 = true ∧ s.getClaim 7 = none ∧ s.BatchExact [2, 7, 1, 2] := by
  obtain ⟨s, hreach, hval⟩ := exists_of_follow always_of_noCheck (deployed 0)
    (demoSetup ++ [demoFile 1 1 1000, demoFile 2 1 1000, .closeLedger 200000])
    (f := fun s => decide (s.getPauseFlags.claimsPaused = false ∧ s.sequence = 200000 ∧
      s.isBatchEligible 1 = true ∧ s.isBatchEligible 2 = true ∧ (s.getClaim 7).isNone = true ∧
      ((s.getClaim 1).map fun c : Claim => (c.approveVotes, c.rejectVotes)) = some (0, 0) ∧
      ((s.getClaim 2).map fun c : Claim => (c.approveVotes, c.rejectVotes)) = some (0, 0)))
    (a := true)
    (fresh_deployed (by decide)) (by simp [demoSetup, demoInit, demoBind, demoFile])
    (by decide +kernel)
  simp only [decide_eq_true_eq, Prod.mk.injEq, Option.isNone_iff_eq_none,
    Option.map_eq_some_iff] at hval
  obtain ⟨hpause, hseq, hel, hel', hnone, ⟨c₁, hc₁, ha₁, hr₁⟩, ⟨c₂, hc₂, ha₂, hr₂⟩⟩ := hval
  have hwindows : WindowsFit s.sequence := by
    rw [hseq]
    exact ⟨by decide, by decide, by decide⟩
  refine ⟨s, hreach, hel, hel', hnone,
    (batchExact_iff hreach hpause (by decide) hwindows).mpr fun id hid claim hclaim _ _ => ?_⟩
  simp only [List.mem_cons, List.not_mem_nil, or_false] at hid
  rcases hid with rfl | rfl | rfl | rfl
  · rw [hc₂] at hclaim
    cases hclaim
    rw [ha₂, hr₂]
    decide
  · rw [hnone] at hclaim
    cases hclaim
  · rw [hc₁] at hclaim
    cases hclaim
    rw [ha₁, hr₁]
    decide
  · rw [hc₂] at hclaim
    cases hclaim
    rw [ha₂, hr₂]
    decide

/-! ## A batch that is held up

`reveal_vote` adds to a tally that saturates, and never looks at the sum of the two. -/

/-- The salt and the commitment of every account. -/
def zeroBytes : Bytes32 := Vector.replicate 32 0

/-- The accounts from 1000 on have committed to a ballot on claim 1, and the first of them have
revealed it: half of them approve, and the others reject. -/
structure Flooded (s : State) (ledger commits reveals half : Nat) : Prop where
  phases : s.get (.commitRevealPhases 1) = some ⟨1500, 3000⟩
  ledger : s.sequence = ledger
  committed : ∀ i : Nat,
    s.get (.voteCommitment 1 (1000 + i)) = if i < commits then some zeroBytes else none
  votes : ∀ i : Nat, reveals ≤ i → s.getVote 1 (1000 + i) = none
  claim : ∃ c, s.getClaim 1 = some c ∧ c.claimId = 1 ∧ c.status = .processing ∧
    c.approveVotes = min reveals half ∧ c.rejectVotes = reveals - half ∧
    c.votingDeadlineLedger < 200000
  active : s.getPauseFlags.claimsPaused = false

theorem sha256_zeroBytes (vote : VoteOption) (voter : Address) :
    demoEnv.sha256 (commitmentPreimage demoEnv vote zeroBytes voter) = zeroBytes := by
  refine if_neg fun h => ?_
  have hsecond := congrArg (fun l : List UInt8 => l[1]?) h
  simp [commitmentPreimage, zeroBytes, demoSalt, List.replicate_succ] at hsecond

theorem auths_demoEnv (i : Nat) : demoEnv.auths (1000 + i) = true := by
  show (1000 + i != contractAddress) = true
  rw [bne_iff_ne, contractAddress]
  omega

theorem flooded_commit {n half : Nat} (h : Flooded s 1000 n 0 half) :
    ∃ s', (contract demoHost).step s (demoCall (.claim (.commitVote (1000 + n) 1 zeroBytes))) s' ∧
      Flooded s' 1000 (n + 1) 0 half := by
  have hnone : s.get (.voteCommitment 1 (1000 + n)) = none := by
    rw [h.committed, if_neg (Nat.lt_irrefl n)]
  have hphase : s.sequence ≤ 1500 := by
    rw [h.ledger]
    decide
  refine ⟨(s.set (.voteCommitment 1 (1000 + n)) zeroBytes).emit
    (.voteCommitted 1 (1000 + n) s.sequence), ⟨rfl, ?_⟩, ?_⟩
  · show commitVote demoEnv s (1000 + n) 1 zeroBytes = _
    simp only [commitVote, bind_eq_ok, requireAuth_eq_ok, okOr_eq_ok, ensure_eq_ok, pure_eq_ok]
    exact ⟨(), auths_demoEnv n, _, h.phases, (), hphase, (), hnone, trivial⟩
  · obtain ⟨c, hclaim, hrest⟩ := h.claim
    refine ⟨by simpa using h.phases, h.ledger, fun i => ?_, fun i hi => ?_, ⟨c, ?_, hrest⟩, ?_⟩
    · by_cases hi : i = n
      · subst hi
        rw [State.get_emit, State.get_set_self, if_pos (Nat.lt_succ_self i)]
      · have hne : (1000 + i) ≠ 1000 + n := by omega
        rw [State.get_emit, State.get_set_of_ne _ _ (by simpa using hne), h.committed]
        by_cases hlt : i < n
        · rw [if_pos hlt, if_pos (by omega)]
        · rw [if_neg hlt, if_neg (by omega)]
    · rw [← h.votes i hi]
      simp [State.getVote]
    · simpa [State.getClaim] using hclaim
    · simpa [State.getPauseFlags] using h.active

theorem flooded_reveal {n m half : Nat} (h : Flooded s 1600 n m half) (hm : m < n)
    (hhalf : m < 2 * half) (hfit : half ≤ U32_MAX) :
    ∃ l s', (contract demoHost).step s l s' ∧ Flooded s' 1600 n (m + 1) half := by
  obtain ⟨c, hclaim, hid, hproc, happ, hrej, hdead⟩ := h.claim
  have hstored : s.get (.voteCommitment 1 (1000 + m)) = some zeroBytes := by
    rw [h.committed, if_pos hm]
  obtain ⟨vote, hvote⟩ : ∃ vote : VoteOption,
      (c.tally vote 1).approveVotes = min (m + 1) half ∧
        (c.tally vote 1).rejectVotes = m + 1 - half := by
    by_cases hlt : m < half
    · refine ⟨.approve, ?_, ?_⟩
      · show saturatingAdd32 c.approveVotes 1 = _
        rw [happ, Nat.min_eq_left (by omega), Nat.min_eq_left (by omega)]
        exact saturatingAdd32_one hlt hfit
      · show c.rejectVotes = _
        rw [hrej]
        omega
    · refine ⟨.reject, ?_, ?_⟩
      · show c.approveVotes = _
        rw [happ]
        omega
      · show saturatingAdd32 c.rejectVotes 1 = _
        rw [hrej, saturatingAdd32_one (by omega) hfit]
        omega
  refine ⟨demoCall (.claim (.revealVote (1000 + m) 1 vote zeroBytes)),
    ((s.setVote 1 (1000 + m) vote).setClaim (c.tally vote 1)).emit (.voteRevealed 1 (1000 + m) vote
      (c.tally vote 1).approveVotes (c.tally vote 1).rejectVotes s.sequence), ⟨rfl, ?_⟩, ?_⟩
  · show revealVote demoEnv s (1000 + m) 1 vote zeroBytes = _
    simp only [revealVote, bind_eq_ok, requireAuth_eq_ok, okOr_eq_ok, ensure_eq_ok, pure_eq_ok]
    refine ⟨(), auths_demoEnv m, _, h.phases, (), ?_, (), ?_, _, hstored, (), h.votes m le_rfl, (),
      sha256_zeroBytes vote _, c, ?_, rfl⟩
    · rw [h.ledger]
      decide
    · rw [h.ledger]
      decide
    · simpa using hclaim
  · have hkey : (c.tally vote 1).claimId = 1 := by
      rw [(tallies_tally c vote 1).1, hid]
    have hstatus : (c.tally vote 1).status = .processing := by
      cases vote <;> exact hproc
    have hdeadline : (c.tally vote 1).votingDeadlineLedger = c.votingDeadlineLedger := by
      cases vote <;> rfl
    refine ⟨by simpa using h.phases, h.ledger, fun i => by simpa using h.committed i,
      fun i hi => ?_, ⟨c.tally vote 1, ?_, hkey, hstatus, hvote.1, hvote.2, ?_⟩, ?_⟩
    · have hne : i ≠ m := by omega
      rw [← h.votes i (by omega), State.getVote, State.getVote, State.get_emit, State.setClaim,
        State.get_set_of_ne _ _ (by simp), State.get_set_of_ne _ _ (by simpa using hne)]
    · rw [State.getClaim, State.get_emit, State.setClaim, hkey]
      exact State.get_set_self _ _
    · rw [hdeadline]
      exact hdead
    · simpa [State.getPauseFlags] using h.active

theorem Flooded.inLedger {ledger commits reveals half : Nat}
    (h : Flooded s ledger commits reveals half)
    (n : Nat) : Flooded { s with sequence := n } n commits reveals half :=
  ⟨h.phases, rfl, h.committed, h.votes, h.claim, h.active⟩

/-- Neither a ballot nor a commitment. -/
def DataKey.noBallot : DataKey → Bool
  | .vote .. | .voteCommitment .. => false
  | _ => true

theorem exists_flooded_start (half : Nat) :
    ∃ s, (contract demoHost).Reach always s ∧ Flooded s 1000 0 0 half := by
  obtain ⟨s, hreach, hval⟩ := exists_of_follow always_of_noCheck (deployed 0)
    [demoInit, demoBind 1 .auto 10000000, demoCall (.claim (.setCommitRevealPhases 1 1500 3000)),
      demoFile 1 1 1000]
    (f := fun s => decide (s.get (.commitRevealPhases 1) = some ⟨1500, 3000⟩ ∧ s.sequence = 1000 ∧
      s.storage.keys.all DataKey.noBallot = true ∧ s.getPauseFlags.claimsPaused = false ∧
      ((s.getClaim 1).map fun c : Claim => (c.claimId, c.status, c.approveVotes)) =
        some (1, .processing, 0) ∧
      ((s.getClaim 1).map fun c : Claim => (c.rejectVotes,
        decide (c.votingDeadlineLedger < 200000))) = some (0, true)))
    (a := true) (fresh_deployed (by decide)) (by simp [demoInit, demoBind, demoFile])
    (by decide +kernel)
  simp only [decide_eq_true_eq, Prod.mk.injEq, Option.map_eq_some_iff] at hval
  obtain ⟨hphases, hseq, hkeys, hpause, ⟨c, hc, hid, hst, ha⟩, c', hc', hr, hdead⟩ := hval
  rw [hc] at hc'
  cases hc'
  refine ⟨s, hreach, hphases, hseq, fun i => ?_, fun i _ => get_eq_none_of_keys hkeys rfl,
    ⟨c, hc, hid, hst, ?_, ?_, hdead⟩, hpause⟩
  · rw [if_neg (Nat.not_lt_zero i)]
    exact get_eq_none_of_keys hkeys rfl
  · rw [ha, Nat.zero_min]
  · rw [hr, Nat.zero_sub]

theorem exists_flooded_committed (half n : Nat) :
    ∃ s, (contract demoHost).Reach always s ∧ Flooded s 1000 n 0 half := by
  induction n with
  | zero => exact exists_flooded_start half
  | succ n ih =>
    obtain ⟨s, hreach, hs⟩ := ih
    obtain ⟨s', hstep, hs'⟩ := flooded_commit hs
    exact ⟨s', hreach.tail trivial hstep, hs'⟩

theorem exists_flooded_revealed (half n : Nat) {m : Nat} (hm : m ≤ n) (hhalf : m ≤ 2 * half)
    (hfit : half ≤ U32_MAX) :
    ∃ s, (contract demoHost).Reach always s ∧ Flooded s 1600 n m half := by
  induction m with
  | zero =>
    obtain ⟨s, hreach, hs⟩ := exists_flooded_committed half n
    have hstep : (contract demoHost).step s (.closeLedger 1600) { s with sequence := 1600 } :=
      ⟨by rw [hs.ledger]; decide, by decide, rfl⟩
    exact ⟨_, hreach.tail trivial hstep, hs.inLedger 1600⟩
  | succ m ih =>
    obtain ⟨s, hreach, hs⟩ := ih (by omega) (by omega)
    obtain ⟨l, s', hstep, hs'⟩ := flooded_reveal hs (by omega) (by omega) hfit
    exact ⟨s', hreach.tail trivial hstep, hs'⟩

/-- **A batch can be held up**: 2^31 revealed approvals and 2^31 revealed rejections of a claim do
not add up within `u32`. -/
theorem not_batchExact :
    ¬ ∀ (host : Host) (s : State) (claimIds : List Nat), (contract host).Reach always s →
      s.getPauseFlags.claimsPaused = false → claimIds.length ≤ BATCH_FINALIZE_MAX →
      WindowsFit s.sequence → s.BatchExact claimIds := by
  intro hall
  have hhalf : 2 ^ 31 ≤ U32_MAX := by decide
  have hwindows : WindowsFit 200000 := ⟨by decide, by decide, by decide⟩
  obtain ⟨s, hreach, hs⟩ :=
    exists_flooded_revealed (2 ^ 31) (2 ^ 32) (m := 2 ^ 32) le_rfl (by decide) hhalf
  have hstep : (contract demoHost).step s (.closeLedger 200000) { s with sequence := 200000 } :=
    ⟨by rw [hs.ledger]; decide, by decide, rfl⟩
  have hlate := hreach.tail trivial hstep
  have hflood := hs.inLedger 200000
  obtain ⟨p, q, s', hok, -⟩ := hall demoHost _ [1] hlate hflood.active (by decide)
    hwindows
  obtain ⟨c, hclaim, -, hproc, happ, hrej, hdead⟩ := hflood.claim
  have hfit := fits_of_finalizeExpiredBatch (claimsKeyed_of_reach hlate)
    (registrySound_of_reach hlate) hok 1 (by decide) c hclaim
      (State.isPastDue_iff.mpr ⟨hproc, hdead⟩)
  rw [happ, hrej] at hfit
  exact absurd hfit (by decide)

end Batches

end NiffyInsure
