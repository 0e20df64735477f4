import NiffyInsure.Lib.PartialShuffle
import NiffyInsure.ClaimSpec
import NiffyInsure.Registry
import NiffyInsure.Trace

/-!
# The sampled electorate

A claim that is filed freezes its electorate: the registry without the claimant, and no more than
`max_voters_per_claim` of it.  `sampleVotersChecked` is the loop of `sample_voters_by_claim_id` with
the traps of the source in it: a remainder by zero, a place that is not in the vector, an
electorate that is read past its end.  It is a `PartialShuffle.run`.

* `sampleVotersChecked_eq`: no trap is reached, and the loop computes what `Voters` says it does.
* `sampled_of_snapshot`: what is stored is `Sampled`.
* `electorate_sampled`: for every claim id, and for the record of every claim that is filed.
-/

namespace NiffyInsure

open Machine

/-! ## The loop with its traps -/

/-- One turn of the generator.  The remainder is one of `u64`, cut to `u32`. -/
def lcg (state rem : Nat) : Option (Nat × Nat) :=
  let state := (state * 6364136223846793005 + 1) % 2 ^ 64
  if rem = 0 then none else some (state, state % rem % 2 ^ 32)

/-- `sample_voters_by_claim_id`, which reads the sample off the shuffled vector place by place. -/
def sampleVotersChecked (eligible : List Address) (maxVoters claimId : Nat) :
    Option (List Address) :=
  let n := eligible.length
  if maxVoters = 0 ∨ n = 0 then some []
  else
    let take := min maxVoters n
    (PartialShuffle.run lcg take 0 (claimId ^^^ 0x9E3779B97F4A7C15) eligible).bind fun work =>
      (List.range take).mapM fun i => work[i]?

/-- `snapshot_claim_voters`. -/
def State.snapshotClaimVotersChecked (s : State) (claimId : Nat) (claimant : Address) :
    Result State := do
  let eligible := s.getVoters.filter (· ≠ claimant)
  let maxVoters := s.getMaxVotersPerClaim
  let selected ←
    if maxVoters < eligible.length then okOr (sampleVotersChecked eligible maxVoters claimId) .trap
    else .ok eligible
  pure (s.set (.claimVoters claimId) selected)

theorem lcg_inRange : PartialShuffle.InRange lcg := by
  intro state n hn
  have hne : n ≠ 0 := by omega
  refine ⟨_, _, if_neg hne, ?_⟩
  exact lt_of_le_of_lt (Nat.mod_le _ _) (Nat.mod_lt _ hn)

theorem exchange_eq_swapAt {work work' : List Address} {i j : Nat}
    (h : PartialShuffle.exchange work i j = some work') : swapAt work i j = work' := by
  unfold PartialShuffle.exchange at h
  unfold swapAt
  cases hi : work[i]? with
  | none => simp [hi] at h
  | some a =>
    cases hj : work[j]? with
    | none => simp [hi, hj] at h
    | some b => simpa [hi, hj] using h

theorem shuffle_of_run {work' : List Address} (steps : Nat) :
    ∀ (i state : Nat) (work : List Address), work.length ≤ U32_MAX →
      PartialShuffle.run lcg steps i state work = some work' →
      shuffle work.length steps i state work = work' := by
  induction steps with
  | zero =>
    intro i state work _ h
    exact Option.some.inj h
  | succ steps ih =>
    intro i state work hlen h
    rw [PartialShuffle.run, Option.bind_eq_some_iff] at h
    obtain ⟨⟨state', d⟩, hdraw, h⟩ := h
    simp only [lcg] at hdraw
    split at hdraw
    · cases hdraw
    · rename_i hrem
      simp only [Option.some.injEq, Prod.mk.injEq] at hdraw
      obtain ⟨rfl, rfl⟩ := hdraw
      rw [shuffle]
      generalize hstate : (state * 6364136223846793005 + 1) % 2 ^ 64 = state' at h ⊢
      have hlt : state' % (work.length - i) < 2 ^ 32 := by
        have := Nat.mod_lt state' (Nat.pos_of_ne_zero hrem)
        unfold U32_MAX at hlen
        omega
      rw [Nat.mod_eq_of_lt hlt] at h
      split at h
      · rename_i hzero
        rw [if_neg (by simpa using hzero)]
        exact ih _ _ work hlen h
      · rename_i hpos
        rw [Option.bind_eq_some_iff] at h
        obtain ⟨work₁, hexchange, h⟩ := h
        have hswap := exchange_eq_swapAt hexchange
        have hlen₁ : work₁.length = work.length := by
          rw [← hswap]
          unfold swapAt
          split <;> simp
        rw [if_pos (show i ≠ i + state' % (work.length - i) by omega), hswap]
        have hrec := ih (i + 1) state' work₁ (by omega) h
        rwa [hlen₁] at hrec

theorem mapM_range_getElem? {work : List Address} {take : Nat} (h : take ≤ work.length) :
    (List.range take).mapM (fun i => work[i]?) = some (work.take take) := by
  induction take with
  | zero => rfl
  | succ take ih =>
    have hlt : take < work.length := by omega
    rw [List.range_succ, List.mapM_append, ih (by omega), List.take_add_one,
      List.getElem?_eq_getElem hlt, Option.toList_some]
    simp only [List.mapM_cons, List.mapM_nil, List.getElem?_eq_getElem hlt]
    rfl

/-- **No trap is reached**: neither by a remainder nor by an index. -/
theorem sampleVotersChecked_eq {eligible : List Address} (hlen : eligible.length ≤ U32_MAX)
    (maxVoters claimId : Nat) :
    sampleVotersChecked eligible maxVoters claimId =
      some (sampleVotersByClaimId eligible maxVoters claimId) := by
  unfold sampleVotersChecked sampleVotersByClaimId
  dsimp only
  split
  · rfl
  · obtain ⟨work, hrun, hperm⟩ := PartialShuffle.exists_run lcg_inRange
      (min maxVoters eligible.length) 0 (claimId ^^^ 0x9E3779B97F4A7C15) eligible (by omega)
    rw [hrun, Option.bind_some, shuffle_of_run _ _ _ eligible hlen hrun]
    exact mapM_range_getElem? (by rw [hperm.length_eq]; omega)

/-! ## What is stored -/

/-- A list is an electorate of the registry for a claimant: as many voters as the cap leaves of
those that may vote, each once. -/
structure State.Sampled (s : State) (claimant : Address) (voters : List Address) : Prop where
  nodup : voters.Nodup
  length : voters.length =
    min s.getMaxVotersPerClaim (s.getVoters.filter (· ≠ claimant)).length
  mem : ∀ a ∈ voters, a ∈ s.getVoters ∧ a ≠ claimant
  all : (s.getVoters.filter (· ≠ claimant)).length ≤ s.getMaxVotersPerClaim →
    ∀ a ∈ s.getVoters, a ≠ claimant → a ∈ voters

variable {s s' : State} {claimId : Nat} {claimant : Address}

theorem exists_perm_sampleVotersByClaimId (eligible : List Address) (maxVoters claimId : Nat) :
    ∃ work : List Address, work.Perm eligible ∧
      sampleVotersByClaimId eligible maxVoters claimId =
        work.take (min maxVoters eligible.length) := by
  unfold sampleVotersByClaimId
  dsimp only
  split
  · rename_i hnone
    have hzero : min maxVoters eligible.length = 0 := by omega
    refine ⟨eligible, .refl _, ?_⟩
    rw [hzero, List.take_zero]
  · exact ⟨_, shuffle_perm .., rfl⟩

theorem sampled_claimElectorate (hnodup : s.getVoters.Nodup) (claimId : Nat)
    (claimant : Address) :
    s.Sampled claimant (s.claimElectorate claimId claimant) := by
  have hnodup' : (s.getVoters.filter (· ≠ claimant)).Nodup := hnodup.filter _
  have hmem : ∀ a, a ∈ s.getVoters.filter (· ≠ claimant) ↔ a ∈ s.getVoters ∧ a ≠ claimant := by
    simp
  unfold State.claimElectorate
  dsimp only
  split
  · rename_i hover
    obtain ⟨work, hperm, hsample⟩ :=
      exists_perm_sampleVotersByClaimId (s.getVoters.filter (· ≠ claimant))
        s.getMaxVotersPerClaim claimId
    rw [hsample]
    refine ⟨PartialShuffle.nodup_take_of_perm hperm hnodup' _, ?_, ?_, fun hle => by omega⟩
    · rw [PartialShuffle.length_take_of_perm hperm]
      omega
    · intro a ha
      exact (hmem a).mp (PartialShuffle.mem_of_mem_take_of_perm hperm ha)
  · exact ⟨hnodup', by omega, fun a ha => (hmem a).mp ha, fun _ a ha hne => (hmem a).mpr ⟨ha, hne⟩⟩

theorem snapshotClaimVotersChecked_eq (hlen : s.getVoters.length ≤ U32_MAX) (claimId : Nat)
    (claimant : Address) :
    s.snapshotClaimVotersChecked claimId claimant =
      .ok (s.snapshotClaimVoters claimId claimant) := by
  have hlen' : (s.getVoters.filter (· ≠ claimant)).length ≤ U32_MAX :=
    le_trans (List.length_filter_le _ _) hlen
  unfold State.snapshotClaimVotersChecked State.snapshotClaimVoters State.claimElectorate
  dsimp only
  split
  · rw [sampleVotersChecked_eq hlen']
    rfl
  · rfl

/-! ## The record of a filed claim -/

theorem fileClaim_electorate {env : Env} {policyId : Nat} {amount : Int} {details : Str}
    {evidence : List ClaimEvidenceEntry} {expectedNonce : Option Nat}
    (h : fileClaim env s claimant policyId amount details evidence expectedNonce =
      .ok (claimId, s')) :
    s'.getClaimVoters claimId = s.claimElectorate claimId claimant ∧
      ∃ claim, s'.getClaim claimId = some claim ∧
        claim.eligibleVoterCount = (s'.getClaimVoters claimId).length := by
  have hvoters : s'.getClaimVoters claimId = s.claimElectorate claimId claimant := by
    simp only [fileClaim, bind_eq_ok, okOr_eq_ok, pure_eq_ok, Prod.exists, Prod.mk.injEq] at h
    obtain ⟨-, -, s₁, h₁, policy, -, -, -, s₂, h₂, -, -, deadline, -, id, s₃, h₃, s₄, h₄,
        rfl, rfl⟩ := h
    obtain ⟨-, rfl⟩ := nextClaimId_eq_ok h₃
    have hpre : Frame [.nonce, .rolling, .claimCounter, .assetLedger, .cash,
        .filingFeePaid] s s₄ := by
      refine Frame.trans ?_ ((frame_collectFilingFee h₄).mono (by simp))
      rw [Frame.set_iff (by simp)]
      exact ((frame_checkAndBumpNonce h₁).mono (by simp)).trans
        ((frame_checkFileClaim h₂).mono (by simp))
    have hrecord := (frame_recordNewClaim (s₄.snapshotClaimVoters id claimant)
      (newClaim id policyId claimant amount (policy.deductible.getD 0) policy.asset details evidence
        deadline s₁.sequence ((s₄.snapshotClaimVoters id claimant).getClaimVoters id).length)
      (s₁.get (.lastClaimLedger claimant))).get (.claimVoters id) rfl
    rw [State.getClaimVoters, hrecord, State.snapshotClaimVoters, State.get_set_self,
      Option.getD_some]
    simp only [State.claimElectorate, State.getMaxVotersPerClaim,
      getVoters_of_same (hpre.sameKind rfl), hpre.get .maxVotersPerClaim rfl]
  obtain ⟨policy, voters, deadline, -, -, -, -, -, -, hrec, -, hsnap, -⟩ := fileClaim_eq_ok h
  refine ⟨hvoters, newClaim claimId policyId claimant amount (policy.deductible.getD 0) policy.asset
    details evidence deadline s.sequence voters.length, ?_, ?_⟩
  · rw [State.getClaim, hrec (.claim claimId) rfl, State.setClaim]
    exact State.get_set_self _ _
  · rw [State.getClaimVoters, hsnap (.claimVoters claimId) rfl, State.get_set_self]
    rfl

/-- **The snapshot of a claim is a sample of the registry**, whatever the claim id, and the record
of every claim that is filed counts it. -/
theorem electorate_sampled (s : State) (hnodup : s.getVoters.Nodup)
    (hlen : s.getVoters.length ≤ U32_MAX) (claimant : Address) :
    (∀ claimId, ∃ voters, s.Sampled claimant voters ∧
      s.snapshotClaimVotersChecked claimId claimant = .ok (s.set (.claimVoters claimId) voters)) ∧
    ∀ env policyId amount details evidence expectedNonce claimId s',
      fileClaim env s claimant policyId amount details evidence expectedNonce =
        .ok (claimId, s') →
      s.Sampled claimant (s'.getClaimVoters claimId) ∧
        s.snapshotClaimVotersChecked claimId claimant =
          .ok (s.set (.claimVoters claimId) (s'.getClaimVoters claimId)) ∧
        ∃ claim, s'.getClaim claimId = some claim ∧
          claim.eligibleVoterCount = (s'.getClaimVoters claimId).length := by
  refine ⟨fun claimId => ?_, ?_⟩
  · exact ⟨_, sampled_claimElectorate hnodup claimId claimant,
      snapshotClaimVotersChecked_eq hlen claimId claimant⟩
  · intro env policyId amount details evidence expectedNonce claimId s' h
    obtain ⟨hvoters, hrecord⟩ := fileClaim_electorate h
    refine ⟨?_, ?_, hrecord⟩
    · rw [hvoters]
      exact sampled_claimElectorate hnodup claimId claimant
    · rw [hvoters]
      exact snapshotClaimVotersChecked_eq hlen claimId claimant

/-- Two of three voters may vote on the claim of the first, and the cap leaves one of them. -/
theorem electorate_sampled_capped :
    ∃ s, (contract demoHost).Reach always s ∧
      s.getVoters = [1, 2, 3] ∧ s.getMaxVotersPerClaim = 1 ∧
      (∀ claimId, ∃ voters, s.Sampled 1 voters ∧
        s.snapshotClaimVotersChecked claimId 1 = .ok (s.set (.claimVoters claimId) voters)) ∧
      ∀ env policyId amount details evidence expectedNonce claimId s',
        fileClaim env s 1 policyId amount details evidence expectedNonce = .ok (claimId, s') →
        s.Sampled 1 (s'.getClaimVoters claimId) ∧
          s.snapshotClaimVotersChecked claimId 1 =
            .ok (s.set (.claimVoters claimId) (s'.getClaimVoters claimId)) ∧
          ∃ claim, s'.getClaim claimId = some claim ∧
            claim.eligibleVoterCount = (s'.getClaimVoters claimId).length := by
  obtain ⟨s, hs, hf⟩ := exists_of_follow
    (f := fun s => (s.getVoters, s.getMaxVotersPerClaim)) (a := ([1, 2, 3], 1))
    always_of_noCheck (deployed 0)
    (demoSetup ++ [demoCall (.setting (.adminSetMaxVotersPerClaim 1))])
    (fresh_deployed (by decide)) (by simp [demoSetup, demoInit, demoBind]) (by decide +kernel)
  simp only [Prod.mk.injEq] at hf
  obtain ⟨hvoters, hcap⟩ := hf
  refine ⟨s, hs, hvoters, hcap, electorate_sampled s ?_ ?_ 1⟩
  · rw [hvoters]
    decide
  · rw [hvoters]
    decide

end NiffyInsure
