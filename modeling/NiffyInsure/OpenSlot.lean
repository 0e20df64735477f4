import NiffyInsure.Lib.Slot
import NiffyInsure.Lifecycle

/-!
# The open-claim slot of a policy

`OpenClaim(holder, policy_id)` is one bit, and says whether a claim of the policy is in
flight: in `Processing` or `UnderAppeal`.  `file_claim` sets it when it is clear.
`open_appeal` sets it without looking, and `process_claim`, `process_payout_timeout` and the
last `disburse_installment` clear it, although their claim left the slot when it was
approved: another claim of the policy may be in flight by then.

* `slotsExact_of_claimCall`: one step, under the condition `SlotClear`.
* `open_slot_exact_of_reach`: in every run in which these four calls find the bit clear, it
  tells the truth and no policy has two claims in flight.
-/

namespace NiffyInsure

open Machine

/-- The policy that a claim is on. -/
def Claim.slot (claim : Claim) : Address × Nat := (claim.claimant, claim.policyId)

/-- The claim is waiting for a decision. -/
def Claim.InFlight (claim : Claim) : Prop :=
  claim.status = .processing ∨ claim.status = .underAppeal

instance (claim : Claim) : Decidable claim.InFlight := by
  unfold Claim.InFlight
  infer_instance

/-- The open-claim bits. -/
def State.slots (s : State) (k : Address × Nat) : Bool := s.hasOpenClaim k.1 k.2

/-- The bit of a policy tells whether a claim on it is in flight, and at most one is. -/
def State.SlotsExact (s : State) : Prop :=
  Slot.Exact s.getClaim Claim.slot Claim.InFlight s.slots

section Writes

variable {s s' : State} {claimId : Nat} {claim claim' : Claim}

theorem getClaim_eq_update (h : SameKind .claim (s.setClaim claim) s') :
    s'.getClaim = Function.update s.getClaim claim.claimId (some claim) := by
  funext id
  rw [getClaim_of_write h, Function.update_apply]

theorem slots_eq_update {holder : Address} {policyId : Nat} {b : Bool}
    (h : SameKind .openClaim (s.setOpenClaim holder policyId b) s') :
    s'.slots = Function.update s.slots (holder, policyId) b := by
  funext k
  obtain ⟨a, p⟩ := k
  have hget : s'.slots (a, p) = (s.setOpenClaim holder policyId b).slots (a, p) := by
    simp only [State.slots, State.hasOpenClaim, h (.openClaim a p) rfl]
  rw [hget, Function.update_apply]
  split
  · rename_i heq
    cases heq
    simp [State.slots, State.hasOpenClaim, State.setOpenClaim]
  · rename_i hne
    have hkey : DataKey.openClaim a p ≠ .openClaim holder policyId := by
      intro heq
      cases heq
      exact hne rfl
    simp [State.slots, State.hasOpenClaim, State.setOpenClaim, hkey]

theorem slots_eq_of_same (h : SameKind .openClaim s s') : s'.slots = s.slots := by
  funext k
  simp only [State.slots, State.hasOpenClaim, h (.openClaim k.1 k.2) rfl]

theorem slotsExact_of_same (hs : s.SlotsExact) (hclaim : SameKind .claim s s')
    (hflag : SameKind .openClaim s s') : s'.SlotsExact := by
  have hget : s'.getClaim = s.getClaim := funext fun id => getClaim_of_same hclaim id
  unfold State.SlotsExact
  rw [hget, slots_eq_of_same hflag]
  exact hs

/-- The claim is rewritten, in flight as before, and no bit is written. -/
theorem slotsExact_of_rewrite (hs : s.SlotsExact) (hk : s.ClaimsKeyed)
    (hclaim : s.getClaim claimId = some claim) (hwrite : SameKind .claim (s.setClaim claim') s')
    (hflag : SameKind .openClaim s s') (hid : claim'.claimId = claim.claimId)
    (hslot : claim'.slot = claim.slot) (hlive : claim'.InFlight ↔ claim.InFlight) :
    s'.SlotsExact := by
  unfold State.SlotsExact
  rw [getClaim_eq_update hwrite, slots_eq_of_same hflag, hid, (hk _ _ hclaim).1]
  exact hs.rewrite hclaim hslot hlive

/-- The claim and the bit of its policy are written together, and the claim held the bit or
the bit was clear. -/
theorem slotsExact_of_write (hs : s.SlotsExact) (hk : s.ClaimsKeyed)
    (hclaim : s.getClaim claimId = some claim) (hwrite : SameKind .claim (s.setClaim claim') s')
    {b : Bool} (hflag : SameKind .openClaim (s.setOpenClaim claim.claimant claim.policyId b) s')
    (hid : claim'.claimId = claim.claimId) (hslot : claim'.slot = claim.slot)
    (hb : b = decide claim'.InFlight)
    (hfree : claim.InFlight ∨ s.hasOpenClaim claim.claimant claim.policyId = false) :
    s'.SlotsExact := by
  unfold State.SlotsExact
  rw [getClaim_eq_update hwrite, slots_eq_update hflag, hid, (hk _ _ hclaim).1, hb]
  change Slot.Exact _ _ _ (Function.update s.slots claim.slot _)
  rw [← hslot]
  refine hs.write ?_ ?_
  · intro a ha
    rw [hclaim] at ha
    cases ha
    exact hslot.symm
  · rw [hslot]
    exact hfree.imp_left fun hl => ⟨claim, hclaim, hl⟩

theorem slotsExact_of_file (hs : s.SlotsExact) (hk : s.ClaimsKeyed)
    (hid : claim.claimId = s.getClaimCounter + 1) (hst : claim.status = .processing)
    (hfree : s.hasOpenClaim claim.claimant claim.policyId = false)
    (hwrite : SameKind .claim (s.setClaim claim) s')
    (hflag : SameKind .openClaim (s.setOpenClaim claim.claimant claim.policyId true) s') :
    s'.SlotsExact := by
  have hlive : true = decide claim.InFlight := by simp [Claim.InFlight, hst]
  unfold State.SlotsExact
  rw [getClaim_eq_update hwrite, slots_eq_update hflag, hlive]
  refine Slot.Exact.write hs ?_ (.inr hfree)
  intro a ha
  have hle := (hk _ _ ha).2
  omega

theorem Closed.slotsExact {outcome : ClaimStatus} (h : Closed s s' claim' outcome)
    (hs : s.SlotsExact) (hk : s.ClaimsKeyed) (hclaim : s.getClaim claimId = some claim)
    (hid : claim'.claimId = claim.claimId) (hslot : claim'.slot = claim.slot)
    (hlive : claim.InFlight) (hout : outcome = .approved ∨ outcome = .rejected) :
    s'.SlotsExact := by
  obtain ⟨x, y, z, hrec⟩ := h.record
  have hflag := h.flag
  have hslot' := hslot
  simp only [Claim.slot, Prod.mk.injEq] at hslot'
  rw [hslot'.1, hslot'.2] at hflag
  refine slotsExact_of_write hs hk hclaim hrec hflag hid hslot ?_ (.inl hlive)
  rcases hout with rfl | rfl <;> rfl

theorem AppealStep.slotsExact (h : AppealStep s s' claim') (hs : s.SlotsExact) (hk : s.ClaimsKeyed)
    (hclaim : s.getClaim claimId = some claim) (hst : claim.status = .underAppeal)
    (hid : claim'.claimId = claim.claimId) (hslot : claim'.slot = claim.slot)
    (hst' : claim'.status = claim.status) : s'.SlotsExact := by
  cases h with
  | voting hrec hflag =>
    exact slotsExact_of_rewrite hs hk hclaim hrec hflag hid hslot
      (by simp only [Claim.InFlight, hst'])
  | decided outcome x y hout hrec hflag =>
    have hslot' := hslot
    simp only [Claim.slot, Prod.mk.injEq] at hslot'
    rw [hslot'.1, hslot'.2] at hflag
    refine slotsExact_of_write hs hk hclaim hrec hflag hid hslot ?_ (.inl (.inr hst))
    rcases hout with rfl | rfl <;> rfl

theorem slot_tally (claim : Claim) (vote : VoteOption) (w : Nat) :
    (claim.tally vote w).slot = claim.slot := by
  cases vote <;> rfl

theorem slot_tallyAppeal (claim : Claim) (vote : VoteOption) (w : Nat) :
    (claim.tallyAppeal vote w).slot = claim.slot := by
  cases vote <;> rfl

theorem inFlight_of_live (hlive : claim.status.Live) (hterm : claim.status.isTerminal = false) :
    claim.InFlight := by
  by_cases hst : claim.status = .underAppeal
  · exact .inr hst
  · exact .inl (eq_processing_of_live hlive hterm hst)

end Writes

/-! ## Steps -/

/-- The bit of the claim's policy is clear. -/
def ClearFor (s : State) (claimId : Nat) : Prop :=
  ∀ claim, s.getClaim claimId = some claim →
    s.hasOpenClaim claim.claimant claim.policyId = false

/-- The condition on a step: the calls that write the bit for a claim that is not in flight
find it clear. -/
def SlotClear (s : State) : Label → Prop
  | .call _ (.claim (.openAppeal _ claimId)) | .call _ (.claim (.processClaim claimId))
  | .call _ (.claim (.processPayoutTimeout claimId)) => ClearFor s claimId
  | .call _ (.claim (.disburseInstallment claimId amount)) =>
    (∀ claim, s.getClaim claimId = some claim → claim.Completes amount) → ClearFor s claimId
  | _ => True

section Calls

variable {env : Env} {s s' : State}

theorem slotsExact_of_processing {claimId : Nat} {st : ClaimStatus} (hs : s.SlotsExact)
    (hk : s.ClaimsKeyed) (hlive : ∃ claim, s.getClaim claimId = some claim ∧ claim.InFlight)
    (h : finalizeClaimInner s claimId = .ok (st, s')) : s'.SlotsExact := by
  obtain ⟨claim, hclaim, hlive⟩ := hlive
  obtain ⟨claim', hclaim', -, hclosed⟩ := finalizeClaimInner_cases h
  rw [hclaim] at hclaim'
  cases hclaim'
  exact hclosed.slotsExact hs hk hclaim rfl rfl hlive (s.deadlineOutcome_cases claimId claim)

theorem slotsExact_of_voteOnClaim {voter : Address} {claimId : Nat} {vote : VoteOption}
    {st : ClaimStatus} (hs : s.SlotsExact) (hk : s.ClaimsKeyed) (hlive : s.ClaimsLive)
    (h : voteOnClaim s voter claimId vote = .ok (st, s')) : s'.SlotsExact := by
  obtain ⟨claim, w, hclaim, hcheck, -, ⟨-, rfl⟩ | ⟨outcome, hout, hclosed⟩⟩ := voteOnClaim_cases h
  · refine slotsExact_of_rewrite hs hk hclaim (SameKind.set (by simp) _ _) (by simp)
      (claimId_tally ..) (slot_tally ..) ?_
    simp only [Claim.InFlight, status_tally]
  · have hin := inFlight_of_live (hlive claimId claim hclaim) (checkBallot_eq_ok.mp hcheck).1
    have hs₁ : (s.setVote claimId voter vote).SlotsExact :=
      slotsExact_of_same hs (by simp) (by simp)
    have hk₁ : (s.setVote claimId voter vote).ClaimsKeyed :=
      claimsKeyed_of_rewrites (.inl (by simp)) (by simp) hk
    have hclaim₁ : (s.setVote claimId voter vote).getClaim claimId = some claim := by
      rw [getClaim_setVote]
      exact hclaim
    exact hclosed.slotsExact hs₁ hk₁ hclaim₁ (claimId_tally ..) (slot_tally ..) hin
      (State.ballotOutcome_eq_some hout)

theorem slotsExact_of_claimCall {c : ClaimCall} (h : c.exec env s = .ok s')
    (hok : SlotClear s (.call env (.claim c))) (hk : s.ClaimsKeyed) (hlive : s.ClaimsLive)
    (hs : s.SlotsExact) : s'.SlotsExact := by
  have hran := ran_of_exec h
  have hf := frame_claimCall h
  cases c with
  | fileClaim =>
    obtain ⟨claimId, hran⟩ := hran
    obtain ⟨policy, voters, deadline, -, -, hclear, hid, -, -, hrec, hflag, -⟩ :=
      fileClaim_eq_ok hran
    exact slotsExact_of_file hs hk hid rfl hclear hrec hflag
  | withdrawClaim =>
    obtain ⟨claim, hclaim, hst, -, -, hrec, hflag⟩ := withdrawClaim_eq_ok hran
    exact slotsExact_of_write hs hk hclaim hrec hflag rfl rfl rfl (.inl (.inl hst))
  | addClaimEvidence =>
    obtain ⟨claim, hclaim, -, hrec⟩ := addClaimEvidence_eq_ok hran
    exact slotsExact_of_rewrite hs hk hclaim hrec (hf.sameKind rfl) rfl rfl Iff.rfl
  | voteOnClaim =>
    obtain ⟨st, hran⟩ := hran
    exact slotsExact_of_voteOnClaim hs hk hlive hran
  | finalizeClaim claimId =>
    obtain ⟨st, hran⟩ := hran
    obtain ⟨claim, hclaim, hterm, -⟩ := finalizeClaimInner_cases hran
    exact slotsExact_of_processing hs hk
      ⟨claim, hclaim, inFlight_of_live (hlive claimId claim hclaim) hterm⟩ hran
  | processDeadline =>
    obtain ⟨⟨claim, hclaim, hst⟩, st, hran⟩ := hran
    exact slotsExact_of_processing hs hk ⟨claim, hclaim, .inl hst⟩ hran
  | finalizeExpiredBatch =>
    obtain ⟨n, m, t, hloop, rfl⟩ := hran
    have hboth := finalizeBatchLoop_keeps (I := fun t => t.ClaimsKeyed ∧ t.SlotsExact) ?_ _ s 0 0
      hloop ⟨hk, hs⟩
    · exact slotsExact_of_same hboth.2 (by simp) (by simp)
    · rintro t t' id st hel hfin ⟨hkt, hst⟩
      obtain ⟨claim, hclaim, hproc, -⟩ := isBatchEligible_iff.mp hel
      exact ⟨claimsKeyed_of_rewrites (rewrites_of_finalizeClaimInner hfin)
        ((frame_finalizeClaimInner hfin).sameKind rfl) hkt,
        slotsExact_of_processing hst hkt ⟨claim, hclaim, .inl hproc⟩ hfin⟩
  | escalateClaim =>
    obtain ⟨claim, hclaim, -, hrec⟩ := escalateClaim_eq_ok hran
    exact slotsExact_of_rewrite hs hk hclaim hrec (hf.sameKind rfl) rfl rfl Iff.rfl
  | processClaim claimId =>
    obtain ⟨claim, failed, hclaim, -, -, -, hrec, hflag, -⟩ := processClaim_eq_ok hran
    have hclear : s.hasOpenClaim claim.claimant claim.policyId = false := hok claim hclaim
    cases failed with
    | false => exact slotsExact_of_write hs hk hclaim hrec hflag rfl rfl rfl (.inr hclear)
    | true => exact slotsExact_of_write hs hk hclaim hrec hflag rfl rfl rfl (.inr hclear)
  | processPayoutTimeout claimId =>
    obtain ⟨st, hran⟩ := hran
    obtain ⟨claim, hclaim, -, hrec, hflag⟩ := processPayoutTimeout_eq_ok hran
    exact slotsExact_of_write hs hk hclaim hrec hflag rfl rfl rfl (.inr (hok claim hclaim))
  | disputeClaim =>
    obtain ⟨claim, hclaim, hst, hrec⟩ := disputeClaim_eq_ok hran
    refine slotsExact_of_rewrite hs hk hclaim hrec (hf.sameKind rfl) rfl rfl ?_
    simp [Claim.InFlight, Claim.moveTo, hst]
  | disburseInstallment claimId amount =>
    obtain ⟨claim, p, hclaim, hst, -, -, -, -, -, hlast, hmore⟩ := disburseInstallment_eq_ok hran
    by_cases hcomp : claim.Completes amount
    · obtain ⟨hrec, hflag⟩ := hlast hcomp
      have hclear : s.hasOpenClaim claim.claimant claim.policyId = false := by
        refine hok (fun c hc => ?_) claim hclaim
        rw [hclaim] at hc
        cases hc
        exact hcomp
      exact slotsExact_of_write hs hk hclaim hrec hflag rfl rfl rfl (.inr hclear)
    · obtain ⟨hrec, hflag⟩ := hmore hcomp
      exact slotsExact_of_rewrite hs hk hclaim hrec hflag rfl rfl Iff.rfl
  | openAppeal _ claimId =>
    obtain ⟨claim, deadline, hclaim, -, hrec, hflag⟩ := openAppeal_eq_ok hran
    exact slotsExact_of_write hs hk hclaim hrec hflag rfl rfl rfl (.inr (hok claim hclaim))
  | voteOnAppeal =>
    obtain ⟨st, hran⟩ := hran
    obtain ⟨claim, hclaim, hst, happeal⟩ := voteOnAppeal_eq_ok hran
    exact happeal.slotsExact hs hk hclaim hst (claimId_tallyAppeal ..) (slot_tallyAppeal ..)
      (status_tallyAppeal ..)
  | finalizeAppeal =>
    obtain ⟨st, hran⟩ := hran
    obtain ⟨claim, hclaim, hst, happeal⟩ := finalizeAppeal_eq_ok hran
    exact happeal.slotsExact hs hk hclaim hst rfl rfl rfl
  | revealVote =>
    obtain ⟨claim, hclaim, -, hrec, -⟩ := revealVote_eq_ok hran
    refine slotsExact_of_rewrite hs hk hclaim hrec (hf.sameKind rfl) (claimId_tally ..)
      (slot_tally ..) ?_
    simp only [Claim.InFlight, status_tally]
  | refreshSnapshot | setClaimFraudScore | setCommitRevealPhases | commitVote | delegateVote =>
    exact slotsExact_of_same hs (hf.sameKind rfl) (hf.sameKind rfl)

end Calls

/-! ## Runs -/

theorem slotsExact_of_step {host : Host} (s : State) (l : Label) (s' : State)
    (hinv : s.ClaimsKeyed ∧ s.ClaimsLive) (hok : SlotClear s l)
    (hstep : (contract host).step s l s') (hs : s.SlotsExact) : s'.SlotsExact := by
  cases l with
  | closeLedger n =>
    obtain ⟨-, -, rfl⟩ := hstep
    exact hs
  | tokens b a =>
    obtain ⟨-, rfl⟩ := hstep
    exact hs
  | call env c =>
    have hf := frame_exec hstep.2
    cases c with
    | policy c =>
      exact slotsExact_of_same hs (hf.sameKind (c.untouched rfl)) (hf.sameKind (c.untouched rfl))
    | treasury c =>
      exact slotsExact_of_same hs (hf.sameKind (c.untouched rfl)) (hf.sameKind (c.untouched rfl))
    | setting c => exact slotsExact_of_same hs (hf.sameKind rfl) (hf.sameKind rfl)
    | governance c =>
      exact slotsExact_of_same hs (hf.sameKind (c.untouched rfl)) (hf.sameKind (c.untouched rfl))
    | claim c => exact slotsExact_of_claimCall hstep.2 hok hinv.1 hinv.2 hs

/-- **The open-claim bit tells the truth.**  In every run in which `open_appeal`,
`process_claim`, `process_payout_timeout` and the last installment find the bit of their
policy clear, the bit of every policy is set exactly when a claim on it is in `Processing` or
`UnderAppeal`, and then exactly one is. -/
theorem open_slot_exact_of_reach {host : Host} {s : State}
    (h : (contract host).Reach SlotClear s) (holder : Address) (policyId : Nat) :
    (s.hasOpenClaim holder policyId = true ↔ ∃ id claim, s.getClaim id = some claim ∧
      claim.claimant = holder ∧ claim.policyId = policyId ∧ claim.InFlight) ∧
      ∀ id id' claim claim', s.getClaim id = some claim → s.getClaim id' = some claim' →
        claim.claimant = holder → claim.policyId = policyId → claim'.claimant = holder →
        claim'.policyId = policyId → claim.InFlight → claim'.InFlight → id = id' := by
  have hexact : s.SlotsExact := by
    refine h.invariant_with (J := fun s => s.ClaimsKeyed ∧ s.ClaimsLive) (I := State.SlotsExact)
      (fun s hs => ⟨claimsKeyed_of_reach hs.to_always, live_of_reach hs.to_always⟩) ?_
      slotsExact_of_step
    intro s hs
    refine Slot.Exact.empty (fun id => State.Fresh.get host hs _) fun k => ?_
    simp only [State.slots, State.hasOpenClaim, State.Fresh.get host hs,
      Option.getD_none]
  constructor
  · have hiff := hexact.flag_iff (holder, policyId)
    simp only [Claim.slot, Prod.mk.injEq, and_assoc] at hiff
    exact hiff
  · rintro id id' claim claim' hc hc' rfl rfl hh hp hl hl'
    exact hexact.unique id id' claim claim' hc hc' hl hl' (by rw [Claim.slot, Claim.slot, hh, hp])

/-- A check for `SlotClear`: none of the four calls. -/
def keepsSlots (_ : State) : Label → Bool
  | .call _ (.claim (.openAppeal ..)) | .call _ (.claim (.processClaim _))
  | .call _ (.claim (.processPayoutTimeout _)) | .call _ (.claim (.disburseInstallment ..)) => false
  | _ => true

theorem slotClear_of_keepsSlots (s : State) (l : Label) (h : keepsSlots s l = true) :
    SlotClear s l := by
  unfold keepsSlots at h
  unfold SlotClear
  split <;> simp_all

/-- A run that meets the condition: a claim is filed, and it is found by its bit. -/
theorem open_slot_exact_filed :
    ∃ s, (contract demoHost).Reach SlotClear s ∧ s.hasOpenClaim 1 1 = true ∧
      ∃ id claim, s.getClaim id = some claim ∧ claim.claimant = 1 ∧ claim.policyId = 1 ∧
        claim.InFlight := by
  obtain ⟨s, hreach, hval⟩ := exists_of_follow slotClear_of_keepsSlots (deployed 0)
    filedTrace (f := fun s => s.hasOpenClaim 1 1) (a := true)
    (fresh_deployed (by decide)) (by simp [filedTrace, demoSetup, demoInit, demoBind, demoFile])
    (by decide +kernel)
  exact ⟨s, hreach, hval, (open_slot_exact_of_reach hreach 1 1).1.mp hval⟩

/-- The run that fills a slot twice: the claim of account 1 is rejected, a day later it files
another claim, and then it appeals the first. -/
def twiceTrace : List Label :=
  filedTrace ++ [demoCall (.claim (.voteOnClaim 2 1 .reject)),
    .closeLedger (1000 + RATE_LIMIT_WINDOW_LEDGERS), demoFile 1 1 1000,
    demoCall (.claim (.openAppeal 1 1))]

/-- **An appeal can bring a second claim of a policy in flight.** -/
theorem open_slot_filled_twice :
    ∃ s, (contract demoHost).Reach always s ∧ ∃ claim claim', s.getClaim 1 = some claim ∧
      s.getClaim 2 = some claim' ∧ claim.claimant = 1 ∧ claim.policyId = 1 ∧
      claim'.claimant = 1 ∧ claim'.policyId = 1 ∧ claim.InFlight ∧ claim'.InFlight := by
  obtain ⟨s, hreach, hval⟩ := exists_of_follow always_of_noCheck (deployed 0)
    twiceTrace
    (f := fun s => ((s.getClaim 1).map fun c => (c.claimant, c.policyId, c.status),
      (s.getClaim 2).map fun c => (c.claimant, c.policyId, c.status)))
    (a := (some (1, 1, .underAppeal), some (1, 1, .processing))) (fresh_deployed (by decide))
    (by simp [twiceTrace, filedTrace, demoSetup, demoInit, demoBind, demoFile])
    (by decide +kernel)
  simp only [Prod.mk.injEq, Option.map_eq_some_iff] at hval
  obtain ⟨⟨claim, hclaim, hh, hp, hst⟩, claim', hclaim', hh', hp', hst'⟩ := hval
  exact ⟨s, hreach, claim, claim', hclaim, hclaim', hh, hp, hh', hp', .inr hst, .inl hst'⟩

end NiffyInsure
