import NiffyInsure.ClaimEdit
import NiffyInsure.Lib.BoundedLog
import NiffyInsure.Trace

/-!
# The status history of a claim

A claim keeps a log of the statuses it went through, cut to the last
`CLAIM_STATUS_HISTORY_MAX`.  The log is compared with the trace of the run: `lifeOf` is the
sequence of statuses that the trace shows for the claim, with their ledgers.  Between the states
before and after a call a claim takes one transition at most, except that `process_claim` stores
it as `Paid` before the payout that may turn it into `PayoutFailed` (`ClaimStatus.route`).

* `Claim.Edit.passes`: every edit logs the transitions that it makes.
* `claimsPassed_of_claimCall`: so does every claim call as a whole.
* `status_history_of_reach`: the log is the end of the claim's life, and ends in its status.
-/

namespace NiffyInsure

open Machine BoundedLog

/-! ## Transitions -/

/-- The statuses that a call takes a claim through. -/
def ClaimStatus.route (a b : ClaimStatus) : List ClaimStatus :=
  if b = a then [] else if b = .payoutFailed then [.paid, .payoutFailed] else [b]

/-- The transitions of a call, as the log enters them. -/
def logged (now : Nat) (route : List ClaimStatus) : List ClaimStatusHistoryEntry :=
  route.map (⟨·, now⟩)

/-- The claim keeps its id, and its log has taken up the way to its new status. -/
structure Claim.Passes (now : Nat) (c c' : Claim) : Prop where
  claimId : c'.claimId = c.claimId
  history : ∀ life, c.statusHistory = keepLast CLAIM_STATUS_HISTORY_MAX life →
    c'.statusHistory = keepLast CLAIM_STATUS_HISTORY_MAX
      (life ++ logged now (c.status.route c'.status))

namespace Claim.Passes

variable {now : Nat} {c c' c'' : Claim}

theorem route_self (a : ClaimStatus) : a.route a = [] := if_pos rfl

theorem still (hid : c'.claimId = c.claimId) (hst : c'.status = c.status)
    (hlog : c'.statusHistory = c.statusHistory) : c.Passes now c' := by
  refine ⟨hid, fun life hlife => ?_⟩
  rw [hst, route_self, hlog, hlife]
  exact congrArg _ (List.append_nil life).symm

theorem refl (now : Nat) (c : Claim) : c.Passes now c := still rfl rfl rfl

theorem once (a : ClaimStatus) (hid : c'.claimId = c.claimId) (hst : c'.status = a)
    (hne : a ≠ c.status) (hfail : a ≠ .payoutFailed)
    (hlog : c'.statusHistory = pushStatusTransition c.statusHistory a now) :
    c.Passes now c' := by
  refine ⟨hid, fun life hlife => ?_⟩
  rw [hst, ClaimStatus.route, if_neg hne, if_neg hfail, hlog, hlife]
  exact keepLast_snoc _ _ _

/-- A record that differs in its tallies only passes on as the first one does. -/
theorem of_same_status (hid : c'.claimId = c.claimId) (hst : c'.status = c.status)
    (hlog : c'.statusHistory = c.statusHistory) (h : c'.Passes now c'') : c.Passes now c'' := by
  refine ⟨h.claimId.trans hid, fun life hlife => ?_⟩
  rw [← hst]
  exact h.history life (hlog.trans hlife)

end Claim.Passes

theorem history_tally (c : Claim) (vote : VoteOption) (w : Nat) :
    (c.tally vote w).statusHistory = c.statusHistory := by
  cases vote <;> rfl

theorem history_tallyAppeal (c : Claim) (vote : VoteOption) (w : Nat) :
    (c.tallyAppeal vote w).statusHistory = c.statusHistory := by
  cases vote <;> rfl

/-- A payout that fails is logged as a payment and then as a failure. -/
theorem passes_processed {now : Nat} {c : Claim} {failed : Bool}
    (hst : c.status = .approved ∨ c.status = .appealApproved) :
    c.Passes now (c.processed now failed) := by
  have hne : ∀ a : ClaimStatus, a ≠ .approved → a ≠ .appealApproved → a ≠ c.status := by
    rintro a h₁ h₂ rfl
    exact hst.elim h₁ h₂
  cases failed with
  | false => exact .once .paid rfl rfl (hne _ (by decide) (by decide)) (by decide) rfl
  | true =>
    refine ⟨rfl, fun life hlife => ?_⟩
    have hroute : c.status.route .payoutFailed = [.paid, .payoutFailed] := by
      rw [ClaimStatus.route, if_neg (hne _ (by decide) (by decide)), if_pos rfl]
    have hpaid : pushStatusTransition c.statusHistory .paid now =
        keepLast CLAIM_STATUS_HISTORY_MAX (life ++ [⟨.paid, now⟩]) := by
      rw [hlife]
      exact keepLast_snoc _ _ _
    change pushStatusTransition (pushStatusTransition c.statusHistory .paid now) .payoutFailed now =
      keepLast _ (life ++ logged now (c.status.route .payoutFailed))
    have happ : life ++ logged now [.paid, .payoutFailed] =
        (life ++ [⟨.paid, now⟩]) ++ [⟨.payoutFailed, now⟩] := by simp [logged]
    rw [hpaid, hroute, happ]
    exact keepLast_snoc _ _ _

/-- **Every edit logs the transitions that it makes.** -/
theorem Claim.Edit.passes {now : Nat} {c c' : Claim} (h : c.Edit now c') : c.Passes now c' := by
  cases h with
  | tally vote w =>
    exact .still (claimId_tally c vote w) (status_tally c vote w) (history_tally c vote w)
  | tallyAppeal vote =>
    exact .still (claimId_tallyAppeal c vote 1) (status_tallyAppeal c vote 1)
      (history_tallyAppeal c vote 1)
  | evidence | escalate | installment => exact .still rfl rfl rfl
  | withdraw hst => exact .once .withdrawn rfl rfl (by rw [hst]; decide) (by decide) rfl
  | close outcome x y z hterm hout =>
    have hne : outcome ≠ c.status := by
      rintro rfl
      rcases hout with h | h <;> rw [h] at hterm <;> cases hterm
    have hfail : outcome ≠ .payoutFailed := by
      rintro rfl
      rcases hout with h | h <;> cases h
    exact .once outcome rfl rfl hne hfail rfl
  | process failed hst => exact passes_processed hst
  | timeout hst => exact .once .payoutTimeout rfl rfl (by rw [hst]; decide) (by decide) rfl
  | dispute hst => exact .once .disputed rfl rfl (by rw [hst]; decide) (by decide) rfl
  | lastInstallment amount hst => exact .once .paid rfl rfl (by rw [hst]; decide) (by decide) rfl
  | appeal deadline hst => exact .once .underAppeal rfl rfl (by rw [hst]; decide) (by decide) rfl
  | closeAppeal outcome x y hst hout =>
    have hne : outcome ≠ c.status := by
      rw [hst]
      rintro rfl
      rcases hout with h | h <;> cases h
    have hfail : outcome ≠ .payoutFailed := by
      rintro rfl
      rcases hout with h | h <;> cases h
    exact .once outcome rfl rfl hne hfail rfl

/-! ## Calls -/

/-- Stored claims pass on, and no claim is stored under a new id. -/
structure ClaimsPassed (s s' : State) : Prop where
  moved : ∀ id c, s.getClaim id = some c → ∃ c', s'.getClaim id = some c' ∧ c.Passes s.sequence c'
  unfiled : ∀ id, s.getClaim id = none → s'.getClaim id = none

section Calls

variable {env : Env} {s s' : State} {claimId : Nat}

theorem ClaimsPassed.of_same (h : SameKind .claim s s') : ClaimsPassed s s' where
  moved id c hc := ⟨c, by rw [getClaim_of_same h, hc], .refl _ c⟩
  unfiled id hnone := by rw [getClaim_of_same h, hnone]

theorem ClaimsPassed.of_write (hk : s.ClaimsKeyed) {c c' : Claim} (hc : s.getClaim claimId = some c)
    (hpass : c.Passes s.sequence c') (hwrite : SameKind .claim (s.setClaim c') s') :
    ClaimsPassed s s' := by
  have hid : c'.claimId = claimId := by rw [hpass.claimId, (hk claimId c hc).1]
  constructor
  · intro id c₀ hc₀
    rw [getClaim_of_write hwrite, hid]
    split
    · rename_i heq
      subst heq
      rw [hc] at hc₀
      cases hc₀
      exact ⟨c', rfl, hpass⟩
    · exact ⟨c₀, hc₀, .refl _ c₀⟩
  · intro id hnone
    rw [getClaim_of_write hwrite, hid, if_neg ?_]
    · exact hnone
    · rintro rfl
      rw [hc] at hnone
      cases hnone

theorem ClaimsPassed.of_edit (hk : s.ClaimsKeyed) {c c' : Claim} (hc : s.getClaim claimId = some c)
    (hedit : c.Edit s.sequence c') (hwrite : SameKind .claim (s.setClaim c') s') :
    ClaimsPassed s s' :=
  .of_write hk hc hedit.passes hwrite

theorem claimsPassed_of_finalizeClaimInner {st : ClaimStatus} (hk : s.ClaimsKeyed)
    (h : finalizeClaimInner s claimId = .ok (st, s')) : ClaimsPassed s s' := by
  obtain ⟨c, hc, hterm, hclosed⟩ := finalizeClaimInner_cases h
  obtain ⟨x, y, z, hrec⟩ := hclosed.record
  exact .of_edit hk hc (.close _ x y z hterm (s.deadlineOutcome_cases claimId c)) hrec

theorem claimsPassed_of_voteOnClaim {voter : Address} {vote : VoteOption} {st : ClaimStatus}
    (hk : s.ClaimsKeyed) (h : voteOnClaim s voter claimId vote = .ok (st, s')) :
    ClaimsPassed s s' := by
  obtain ⟨c, w, hc, hcheck, -, ⟨-, rfl⟩ | ⟨outcome, hout, hclosed⟩⟩ := voteOnClaim_cases h
  · exact .of_edit hk hc (.tally vote w) (SameKind.set (by simp) _ _)
  · obtain ⟨x, y, z, hrec⟩ := hclosed.record
    have hterm : (c.tally vote w).status.isTerminal = false := by
      rw [status_tally]
      exact (checkBallot_eq_ok.mp hcheck).1
    have hclose : (c.tally vote w).Edit s.sequence
        ((c.tally vote w).closed outcome s.sequence x y z) :=
      .close outcome x y z hterm (State.ballotOutcome_eq_some hout)
    refine .of_write hk hc ?_ (SameKind.trans (SameKind.set (by simp) _ _) hrec)
    exact hclose.passes.of_same_status (claimId_tally c vote w) (status_tally c vote w)
      (history_tally c vote w)

theorem AppealStep.claimsPassed {c c₀ : Claim} (hk : s.ClaimsKeyed) (h : AppealStep s s' c)
    (hc : s.getClaim claimId = some c₀) (hid : c.claimId = c₀.claimId)
    (hst : c₀.status = .underAppeal) (hst' : c.status = c₀.status)
    (hlog : c.statusHistory = c₀.statusHistory) : ClaimsPassed s s' := by
  cases h with
  | voting hrec _ => exact .of_write hk hc (.still hid hst' hlog) hrec
  | decided outcome x y hout hrec _ =>
    have hclose : c.Edit s.sequence (c.appealClosed outcome s.sequence x y) :=
      .closeAppeal outcome x y (hst'.trans hst) hout
    exact .of_write hk hc (hclose.passes.of_same_status hid hst' hlog) hrec

theorem claimsPassed_of_batch {ids : List Nat} {n m : Nat} (hk : s.ClaimsKeyed)
    (h : finalizeBatchLoop ids s 0 0 = .ok (n, m, s')) : ClaimsPassed s s' := by
  obtain ⟨hmoved, hnone⟩ := batch_lift (R := Claim.Passes s.sequence) hk (by
    intro u u' id d st hseq hd hproc h₁
    obtain ⟨d', hd', hterm, hclosed⟩ := finalizeClaimInner_cases h₁
    rw [hd] at hd'
    cases hd'
    obtain ⟨x, y, z, hrec⟩ := hclosed.record
    have hout := u.deadlineOutcome_cases id d
    have hclose : d.Edit u.sequence (d.closed (u.deadlineOutcome id d) u.sequence x y z) :=
      .close _ x y z hterm hout
    refine ⟨_, hrec, rfl, ?_, hseq ▸ hclose.passes⟩
    change u.deadlineOutcome id d ≠ .processing
    rcases hout with h | h <;> rw [h] <;> decide) h
  refine ⟨fun id c hc => ?_, hnone⟩
  obtain ⟨c', hc', rfl | hpass⟩ := hmoved id c hc
  · exact ⟨c', hc', .refl _ c'⟩
  · exact ⟨c', hc', hpass⟩

/-- **A claim call other than `file_claim` logs the transitions that it makes.** -/
theorem claimsPassed_of_claimCall {c : ClaimCall} (hk : s.ClaimsKeyed)
    (h : c.exec env s = .ok s') (hc : c.files = false) : ClaimsPassed s s' := by
  have hran := ran_of_exec h
  cases c with
  | fileClaim => cases hc
  | voteOnClaim =>
    obtain ⟨st, hran⟩ := hran
    exact claimsPassed_of_voteOnClaim hk hran
  | finalizeClaim =>
    obtain ⟨st, hran⟩ := hran
    exact claimsPassed_of_finalizeClaimInner hk hran
  | processDeadline =>
    obtain ⟨-, st, hran⟩ := hran
    exact claimsPassed_of_finalizeClaimInner hk hran
  | finalizeExpiredBatch ids =>
    obtain ⟨n, m, t, hloop, rfl⟩ := hran
    have hpassed := claimsPassed_of_batch hk hloop
    exact ⟨hpassed.moved, hpassed.unfiled⟩
  | voteOnAppeal voter id vote =>
    obtain ⟨st, hran⟩ := hran
    obtain ⟨claim, hclaim, hst, hstep⟩ := voteOnAppeal_eq_ok hran
    exact hstep.claimsPassed hk hclaim (claimId_tallyAppeal _ _ _) hst (status_tallyAppeal _ _ _)
      (history_tallyAppeal _ _ _)
  | finalizeAppeal id =>
    obtain ⟨st, hran⟩ := hran
    obtain ⟨claim, hclaim, hst, hstep⟩ := finalizeAppeal_eq_ok hran
    exact hstep.claimsPassed hk hclaim rfl hst rfl rfl
  | withdrawClaim | addClaimEvidence | escalateClaim | processClaim | processPayoutTimeout
  | disputeClaim | disburseInstallment | openAppeal | revealVote =>
    obtain ⟨id, claim, claim', hclaim, hedit, hrec⟩ := edit_of_claimCall h rfl
    exact .of_edit hk hclaim hedit hrec
  | refreshSnapshot | setClaimFraudScore | setCommitRevealPhases | commitVote | delegateVote =>
    exact .of_same ((frame_claimCall h).sameKind rfl)

theorem claimsPassed_of_step {host : Host} {l : Label} (hk : s.ClaimsKeyed)
    (hstep : (contract host).step s l s')
    (hl : ∀ env c, l = .call env (.claim c) → c.files = false) : ClaimsPassed s s' := by
  cases l with
  | closeLedger n =>
    obtain ⟨-, -, rfl⟩ := hstep
    exact .of_same fun _ _ => rfl
  | tokens b a =>
    obtain ⟨-, rfl⟩ := hstep
    exact .of_same fun _ _ => rfl
  | call env c =>
    have hf := frame_exec hstep.2
    cases c with
    | claim c => exact claimsPassed_of_claimCall hk hstep.2 (hl env c rfl)
    | policy c => exact .of_same (hf.sameKind (c.untouched rfl))
    | treasury c => exact .of_same (hf.sameKind (c.untouched rfl))
    | setting c => exact .of_same (hf.sameKind rfl)
    | governance c => exact .of_same (hf.sameKind (c.untouched rfl))

end Calls

/-! ## The life of a claim -/

/-- The transitions of the claim that a move shows. -/
def entered (id : Nat) (m : Move State Label) : List ClaimStatusHistoryEntry :=
  match m.before.getClaim id, m.after.getClaim id with
  | none, some c' => logged m.before.sequence [c'.status]
  | some c, some c' => logged m.before.sequence (c.status.route c'.status)
  | _, none => []

/-- The statuses that the claim went through, with the ledgers of the transitions. -/
def lifeOf (g : Journal) (id : Nat) : List ClaimStatusHistoryEntry := g.flatMap (entered id)

theorem lifeOf_append (g : Journal) (m : Move State Label) (id : Nat) :
    lifeOf (g ++ [m]) id = lifeOf g id ++ entered id m := by
  simp [lifeOf]

/-- The log of the claim is the end of its life `life`, which ends in its status and runs forward
up to the present ledger. -/
structure Claim.LogsLife (now : Nat) (life : List ClaimStatusHistoryEntry) (c : Claim) :
    Prop where
  history : c.statusHistory = keepLast CLAIM_STATUS_HISTORY_MAX life
  status : life.getLast?.map (·.status) = some c.status
  sorted : life.Pairwise (·.ledger ≤ ·.ledger)
  past : ∀ e ∈ life, e.ledger ≤ now

theorem status_route {a b : ClaimStatus} {now : Nat} {life : List ClaimStatusHistoryEntry}
    (h : life.getLast?.map (·.status) = some a) :
    (life ++ logged now (a.route b)).getLast?.map (·.status) = some b := by
  unfold ClaimStatus.route
  split
  · rename_i heq
    rw [heq, ← h]
    exact congrArg (fun l => (List.getLast? l).map _) (List.append_nil life)
  · split
    · rename_i heq
      simp [logged, heq]
    · simp [logged]

theorem Claim.LogsLife.mono {now now' : Nat} {life : List ClaimStatusHistoryEntry} {c : Claim}
    (h : c.LogsLife now life) (hle : now ≤ now') : c.LogsLife now' life :=
  ⟨h.history, h.status, h.sorted, fun e he => (h.past e he).trans hle⟩

theorem Claim.LogsLife.passes {now : Nat} {life : List ClaimStatusHistoryEntry} {c c' : Claim}
    (h : c.LogsLife now life) (hpass : c.Passes now c') :
    c'.LogsLife now (life ++ logged now (c.status.route c'.status)) := by
  have hnow : ∀ e ∈ logged now (c.status.route c'.status), e.ledger = now := by
    intro e he
    obtain ⟨a, -, rfl⟩ := List.mem_map.mp he
    rfl
  refine ⟨hpass.history life h.history, status_route h.status, ?_, ?_⟩
  · rw [List.pairwise_append]
    refine ⟨h.sorted, ?_, ?_⟩
    · refine List.Pairwise.imp_of_mem (R := fun _ _ => True) ?_
        (List.pairwise_of_forall fun _ _ => trivial)
      intro a b ha hb _
      rw [hnow a ha, hnow b hb]
    · intro a ha b hb
      rw [hnow b hb]
      exact h.past a ha
  · intro e he
    rcases List.mem_append.mp he with he | he
    · exact h.past e he
    · exact (hnow e he).le

theorem logsLife_of_new {claimId policyId : Nat} {holder : Address} {amount deductible : Int}
    {asset : Address} {details : Str} {evidence : List ClaimEvidenceEntry}
    {deadline now voters : Nat} :
    (newClaim claimId policyId holder amount deductible asset details evidence deadline now
      voters).LogsLife now (logged now [.processing]) := by
  refine ⟨rfl, rfl, List.pairwise_singleton _ _, ?_⟩
  intro e he
  rw [List.mem_singleton.mp he]

/-- Every stored claim logs its life, and a claim that is not stored has none. -/
structure LivesLogged (s : State) (g : Journal) : Prop where
  stored : ∀ id c, s.getClaim id = some c → c.LogsLife s.sequence (lifeOf g id)
  unfiled : ∀ id, s.getClaim id = none → lifeOf g id = []

theorem livesLogged_of_passed {s s' : State} {g : Journal} {l : Label}
    (hle : s.sequence ≤ s'.sequence) (hpassed : ClaimsPassed s s') (h : LivesLogged s g) :
    LivesLogged s' (g ++ [⟨s, l, s'⟩]) := by
  constructor
  · intro id c' hc'
    cases hc : s.getClaim id with
    | none =>
      rw [hpassed.unfiled id hc] at hc'
      cases hc'
    | some c =>
      obtain ⟨c'', hc'', hpass⟩ := hpassed.moved id c hc
      rw [hc'] at hc''
      cases hc''
      have hentered : entered id ⟨s, l, s'⟩ = logged s.sequence (c.status.route c'.status) := by
        simp only [entered, hc, hc']
      rw [lifeOf_append, hentered]
      exact ((h.stored id c hc).passes hpass).mono hle
  · intro id hnone
    cases hc : s.getClaim id with
    | none =>
      rw [lifeOf_append, h.unfiled id hc]
      simp only [entered, hc, hnone, List.append_nil]
    | some c =>
      obtain ⟨c', hc', -⟩ := hpassed.moved id c hc
      rw [hnone] at hc'
      cases hc'

theorem livesLogged_of_file {env : Env} {s s' : State} {g : Journal} {l : Label} {holder : Address}
    {policyId claimId : Nat} {amount : Int} {details : Str} {evidence : List ClaimEvidenceEntry}
    {expectedNonce : Option Nat} (hk : s.ClaimsKeyed)
    (hran : fileClaim env s holder policyId amount details evidence expectedNonce =
      .ok (claimId, s'))
    (h : LivesLogged s g) : LivesLogged s' (g ++ [⟨s, l, s'⟩]) := by
  have hseq := (frame_fileClaim hran).sequence
  obtain ⟨policy, voters, deadline, -, -, -, hid, -, -, hrec, -⟩ := fileClaim_eq_ok hran
  have hfresh : s.getClaim claimId = none := hk.unfiled (by omega)
  have hget : ∀ id, s'.getClaim id = if id = claimId then some (newClaim claimId policyId holder
      amount (policy.deductible.getD 0) policy.asset details evidence deadline s.sequence
      voters.length)
      else s.getClaim id := getClaim_of_write hrec
  constructor
  · intro id c' hc'
    rw [lifeOf_append, hseq]
    rw [hget] at hc'
    split at hc'
    · rename_i heq
      subst heq
      cases hc'
      rw [h.unfiled id hfresh, List.nil_append]
      have hentered : entered id ⟨s, l, s'⟩ = logged s.sequence [.processing] := by
        simp only [entered, hfresh, hget, if_pos, newClaim]
      rw [hentered]
      exact logsLife_of_new
    · rename_i hne
      have hentered : entered id ⟨s, l, s'⟩ = [] := by
        simp only [entered, hget, if_neg hne, hc', Claim.Passes.route_self, logged, List.map_nil]
      rw [hentered, List.append_nil]
      exact h.stored id c' hc'
  · intro id hnone
    have hold : s.getClaim id = none := by
      rw [hget] at hnone
      split at hnone
      · cases hnone
      · exact hnone
    rw [lifeOf_append, h.unfiled id hold]
    simp only [entered, hold, hnone, List.append_nil]

/-- **Every claim logs its life**, in every run. -/
theorem livesLogged_of_reach {host : Host} {s : State} {g : Journal}
    (h : (contract host).traced.Reach (fun p l => always p.1 l) (s, g)) : LivesLogged s g := by
  refine h.trace_invariant (I := LivesLogged) ?_ ?_
  · intro s hs
    have hnone : ∀ id, s.getClaim id = none := fun id => State.Fresh.get host hs _
    refine ⟨fun id c hc => ?_, fun id _ => rfl⟩
    rw [hnone] at hc
    cases hc
  · intro s g l s' hreach _ hstep hI
    have hk := claimsKeyed_of_reach hreach
    by_cases hfile : ∀ env c, l = .call env (.claim c) → c.files = false
    · exact livesLogged_of_passed (sequence_of_step hstep).1
        (claimsPassed_of_step hk hstep hfile) hI
    · push Not at hfile
      obtain ⟨env, c, rfl, hfiles⟩ := hfile
      obtain ⟨-, hexec⟩ := hstep
      cases c with
      | fileClaim holder policyId amount details evidence expected =>
        obtain ⟨id, hran⟩ := ran_of_exec (c := .fileClaim holder policyId amount details evidence
          expected) hexec
        exact livesLogged_of_file hk hran hI
      | _ => exact absurd rfl hfiles

/-- **The status history is the end of the claim's life.**  In every reached state the log of a
stored claim is not empty, ends in the claim's status, has ledgers that do not go back and at most
`CLAIM_STATUS_HISTORY_MAX` entries, and is the suffix of that length of the statuses that the run
took the claim through; it leaves entries out only when it is full. -/
theorem status_history_of_reach {host : Host} {s : State} {g : Journal} {id : Nat} {c : Claim}
    (h : (contract host).traced.Reach (fun p l => always p.1 l) (s, g))
    (hc : s.getClaim id = some c) :
    c.statusHistory ≠ [] ∧ c.statusHistory.getLast?.map (·.status) = some c.status ∧
      c.statusHistory.Pairwise (·.ledger ≤ ·.ledger) ∧
      c.statusHistory.length ≤ CLAIM_STATUS_HISTORY_MAX ∧ c.statusHistory <:+ lifeOf g id ∧
      (c.statusHistory.length < CLAIM_STATUS_HISTORY_MAX → c.statusHistory = lifeOf g id) := by
  have hlife := (livesLogged_of_reach h).stored id c hc
  have hsuffix := keepLast_suffix CLAIM_STATUS_HISTORY_MAX (lifeOf g id)
  have hne : lifeOf g id ≠ [] := by
    intro hnil
    have hst := hlife.status
    rw [hnil] at hst
    cases hst
  rw [hlife.history]
  refine ⟨keepLast_ne_nil (by decide) hne, ?_, hlife.sorted.sublist hsuffix.sublist,
    length_keepLast_le _ _, hsuffix, keepLast_eq_self⟩
  rw [getLast?_keepLast (by decide)]
  exact hlife.status

/-- A claim whose payout runs out of funds: one call logs two transitions. -/
theorem status_history_of_failed_payout : ∃ s g c,
    (contract demoHost).traced.Reach (fun p l => always p.1 l) (s, g) ∧ s.getClaim 1 = some c ∧
      c.statusHistory = [⟨.processing, 1001⟩, ⟨.approved, 1002⟩, ⟨.paid, 1003⟩,
        ⟨.payoutFailed, 1003⟩] ∧
      c.statusHistory <:+ lifeOf g 1 := by
  obtain ⟨s, g, hreach, hval⟩ := exists_journal always_of_noCheck (deployed 0)
    [demoInit, demoCall (.setting (.adminSetReinsuranceContract 5)),
      demoBind 1 .auto 1400000000, demoBind 2 .auto 10000000, .closeLedger 1001,
      demoFile 1 1 1400000000, .closeLedger 1002, demoCall (.claim (.voteOnClaim 2 1 .approve)),
      .closeLedger 1003, demoCall (.claim (.processClaim 1))]
    (f := fun p => (p.1.getClaim 1).map (·.statusHistory))
    (a := some [⟨.processing, 1001⟩, ⟨.approved, 1002⟩, ⟨.paid, 1003⟩, ⟨.payoutFailed, 1003⟩])
    (fresh_deployed (by decide)) (by simp [demoInit, demoBind, demoFile]) (by decide +kernel)
  obtain ⟨c, hc, hlog⟩ := Option.map_eq_some_iff.mp hval
  obtain ⟨-, -, -, -, hsuffix, -⟩ := status_history_of_reach hreach hc
  exact ⟨s, g, c, hreach, hc, hlog, hsuffix⟩

end NiffyInsure
