import NiffyInsure.Lifecycle

/-!
# Ballots of the base round

`vote_on_claim` and `reveal_vote` write the same vote entries and the same tallies.
`vote_on_claim` checks the electorate and the claimant, but takes a ballot on any claim that
is not terminal; `reveal_vote` checks only the voter's own commitment.

* `State.ballots` counts the stored vote entries of a claim.
* `BallotsAt`: the tallies of a claim are these counts, and the voters are in the electorate
  that was frozen at filing.
* `BallotStep`: one step keeps this, and keeps the tallies of every claim that has left
  `Processing`.
* `ballots_exact_of_reach`: the same over every run in which ballots are cast on claims in
  `Processing` and revealed by members of the electorate.
-/

namespace NiffyInsure

open Machine KeyedStore

/-! ## Counting the stored ballots -/

/-- Whether an entry is the ballot `vote` on the claim. -/
def ballotIs (claimId : Nat) (vote : VoteOption) : (k : DataKey) → k.Val → Nat
  | .vote id _, v => if id = claimId ∧ v = vote then 1 else 0
  | _, _ => 0

/-- The number of stored ballots `vote` on the claim. -/
def State.ballots (s : State) (claimId : Nat) (vote : VoteOption) : Nat :=
  total (ballotIs claimId vote) s.storage

theorem ballotIs_eq_zero {claimId : Nat} {vote : VoteOption} (k : DataKey) (v : k.Val)
    (hk : ¬ k.kind = .vote) : ballotIs claimId vote k v = 0 := by
  unfold ballotIs
  split
  · exact absurd rfl hk
  · rfl

section Counting

variable {s s' : State} {claimId : Nat}

theorem ballots_of_same (h : SameKind .vote s s') (vote : VoteOption) :
    s'.ballots claimId vote = s.ballots claimId vote :=
  AgreeOn.total_eq (P := fun k => k.kind = .vote) (fun k hk => h k hk) ballotIs_eq_zero

theorem ballots_setVote {id : Nat} {voter : Address} {v : VoteOption}
    (hnone : s.getVote id voter = none) (vote : VoteOption) :
    (s.setVote id voter v).ballots claimId vote =
      (if id = claimId ∧ v = vote then 1 else 0) + s.ballots claimId vote := by
  have hadd := total_insert_add (ballotIs claimId vote) s.storage (.vote id voter) v
  have hlook : s.storage.lookup (.vote id voter) = none := hnone
  rw [hlook, share_none, zero_add] at hadd
  exact hadd

/-- Voters that are all in `voters` cast at most one ballot each. -/
theorem ballots_lt_of_mem {voters : List Address} {voter : Address} {vote : VoteOption}
    (hmem : ∀ a, s.getVote claimId a ≠ none → a ∈ voters) (hvoter : voter ∈ voters)
    (hnone : s.getVote claimId voter = none) : s.ballots claimId vote < voters.length := by
  -- the keys that can hold a ballot: one for each other member of the electorate
  have hle : s.ballots claimId vote ≤
      ((voters.toFinset.erase voter).image fun a => DataKey.vote claimId a).card := by
    refine total_le_card (fun k v _ => ?_) fun k v hv hk => ?_
    · unfold ballotIs
      split
      · split <;> simp
      · simp
    · unfold ballotIs
      split
      · rename_i id a v
        rw [if_neg ?_]
        rintro ⟨rfl, -⟩
        refine hk (Finset.mem_image.mpr ⟨a, ?_, rfl⟩)
        have hget : s.getVote id a = some v := hv
        refine Finset.mem_erase.mpr ⟨?_, List.mem_toFinset.mpr (hmem a (by simp [hget]))⟩
        rintro rfl
        rw [hnone] at hget
        cases hget
      · rfl
  have hcard : (voters.toFinset.erase voter).card + 1 = voters.toFinset.card :=
    Finset.card_erase_add_one (List.mem_toFinset.mpr hvoter)
  have himage := Finset.card_image_le (s := voters.toFinset.erase voter)
    (f := fun a => DataKey.vote claimId a)
  have hlen := List.toFinset_card_le voters
  omega

theorem ballots_eq_zero (hnone : ∀ a, s.getVote claimId a = none) (vote : VoteOption) :
    s.ballots claimId vote = 0 := by
  refine total_eq_zero fun k v hv => ?_
  unfold ballotIs
  split
  · rename_i id a v
    rw [if_neg ?_]
    rintro ⟨rfl, -⟩
    have hget : s.getVote id a = some v := hv
    rw [hnone] at hget
    cases hget
  · rfl

end Counting

/-! ## The invariant -/

/-- The tallies of the claim `id` are the stored ballots, cast by members of an electorate
that leaves out the claimant. -/
structure BallotsAt (s : State) (id : Nat) (claim : Claim) : Prop where
  approve : claim.approveVotes = s.ballots id .approve
  reject : claim.rejectVotes = s.ballots id .reject
  eligible : ∀ voter, s.getVote id voter ≠ none → voter ∈ s.getClaimVoters id
  claimant : claim.claimant ∉ s.getClaimVoters id
  bound : (s.getClaimVoters id).length ≤ U32_MAX

/-- The ballots of every claim are in order, and there are none without a claim. -/
def BallotsExact (s : State) : Prop :=
  (∀ id, s.getClaim id = none → ∀ voter, s.getVote id voter = none) ∧
    ∀ id claim, s.getClaim id = some claim → BallotsAt s id claim

/-- Electorates stay, and so do the tallies of a claim that has left `Processing`. -/
def Frozen (s s' : State) : Prop :=
  ∀ id claim, s.getClaim id = some claim → ∃ claim', s'.getClaim id = some claim' ∧
    s'.getClaimVoters id = s.getClaimVoters id ∧
    (claim.status ≠ .processing → claim'.status ≠ .processing ∧
      claim'.approveVotes = claim.approveVotes ∧ claim'.rejectVotes = claim.rejectVotes)

theorem Frozen.refl (s : State) : Frozen s s :=
  fun _ claim hclaim => ⟨claim, hclaim, rfl, fun hst => ⟨hst, rfl, rfl⟩⟩

theorem Frozen.trans {s s' s'' : State} (h : Frozen s s') (h' : Frozen s' s'') : Frozen s s'' := by
  intro id claim hclaim
  obtain ⟨claim', hclaim', hvoters, hkeep⟩ := h id claim hclaim
  obtain ⟨claim'', hclaim'', hvoters', hkeep'⟩ := h' id claim' hclaim'
  refine ⟨claim'', hclaim'', hvoters'.trans hvoters, fun hst => ?_⟩
  obtain ⟨hst', ha, hr⟩ := hkeep hst
  obtain ⟨hst'', ha', hr'⟩ := hkeep' hst'
  exact ⟨hst'', ha'.trans ha, hr'.trans hr⟩

/-- What a step does to the ballots. -/
structure BallotStep (s s' : State) : Prop where
  exact : BallotsExact s → BallotsExact s'
  frozen : Frozen s s'

theorem BallotStep.trans {s s' s'' : State} (h : BallotStep s s') (h' : BallotStep s' s'') :
    BallotStep s s'' where
  exact hs := h'.exact (h.exact hs)
  frozen := h.frozen.trans h'.frozen

section Writes

variable {s s' : State} {claimId : Nat} {claim claim' : Claim}

theorem getClaimVoters_of_same (h : SameKind .claimVoters s s') (id : Nat) :
    s'.getClaimVoters id = s.getClaimVoters id := by
  simp only [State.getClaimVoters, h (.claimVoters id) rfl]

theorem getVote_of_same (h : SameKind .vote s s') (id : Nat) (voter : Address) :
    s'.getVote id voter = s.getVote id voter :=
  h _ rfl

theorem BallotsAt.of_same {id : Nat} (h : BallotsAt s id claim) (hvote : SameKind .vote s s')
    (hvoters : SameKind .claimVoters s s') (hclaimant : claim'.claimant = claim.claimant)
    (happ : claim'.approveVotes = claim.approveVotes)
    (hrej : claim'.rejectVotes = claim.rejectVotes) : BallotsAt s' id claim' where
  approve := by rw [ballots_of_same hvote, happ, h.approve]
  reject := by rw [ballots_of_same hvote, hrej, h.reject]
  eligible voter hv := by
    rw [getClaimVoters_of_same hvoters]
    rw [getVote_of_same hvote] at hv
    exact h.eligible voter hv
  claimant := by
    rw [getClaimVoters_of_same hvoters, hclaimant]
    exact h.claimant
  bound := by
    rw [getClaimVoters_of_same hvoters]
    exact h.bound

theorem ballotStep_of_same (hclaim : SameKind .claim s s') (hvote : SameKind .vote s s')
    (hvoters : SameKind .claimVoters s s') : BallotStep s s' where
  exact := by
    rintro ⟨hnone, hat⟩
    refine ⟨fun id hid voter => ?_, fun id claim hid => ?_⟩
    · rw [getClaim_of_same hclaim] at hid
      rw [getVote_of_same hvote]
      exact hnone id hid voter
    · rw [getClaim_of_same hclaim] at hid
      exact (hat id claim hid).of_same hvote hvoters rfl rfl rfl
  frozen id claim hid :=
    ⟨claim, by rwa [getClaim_of_same hclaim], getClaimVoters_of_same hvoters id,
      fun hst => ⟨hst, rfl, rfl⟩⟩

theorem ballotStep_of_rewrite (hk : s.ClaimsKeyed) (hclaim : s.getClaim claimId = some claim)
    (hwrite : SameKind .claim (s.setClaim claim') s') (hid : claim'.claimId = claim.claimId)
    (hclaimant : claim'.claimant = claim.claimant)
    (happ : claim'.approveVotes = claim.approveVotes)
    (hrej : claim'.rejectVotes = claim.rejectVotes)
    (hst : claim.status ≠ .processing → claim'.status ≠ .processing)
    (hvote : SameKind .vote s s') (hvoters : SameKind .claimVoters s s') : BallotStep s s' := by
  have hkey : claim'.claimId = claimId := by rw [hid, (hk _ _ hclaim).1]
  constructor
  · rintro ⟨hnone, hat⟩
    refine ⟨fun id hno voter => ?_, fun id c hc => ?_⟩
    · rw [getClaim_of_write hwrite] at hno
      split at hno
      · cases hno
      · rw [getVote_of_same hvote]
        exact hnone id hno voter
    · rw [getClaim_of_write hwrite, hkey] at hc
      split at hc
      · rename_i heq
        cases hc
        subst heq
        exact (hat id claim hclaim).of_same hvote hvoters hclaimant happ hrej
      · exact (hat id c hc).of_same hvote hvoters rfl rfl rfl
  · intro id c hc
    rw [getClaim_of_write hwrite, hkey]
    split
    · rename_i heq
      subst heq
      rw [hclaim] at hc
      cases hc
      exact ⟨claim', rfl, getClaimVoters_of_same hvoters id, fun h => ⟨hst h, happ, hrej⟩⟩
    · exact ⟨c, hc, getClaimVoters_of_same hvoters id, fun h => ⟨h, rfl, rfl⟩⟩

theorem saturatingAdd32_one {n m : Nat} (h : n < m) (hm : m ≤ U32_MAX) :
    saturatingAdd32 n 1 = n + 1 := by
  unfold saturatingAdd32
  omega

theorem BallotsAt.of_ballot {voter : Address} {vote : VoteOption} (h : BallotsAt s claimId claim)
    (hvote : SameKind .vote (s.setVote claimId voter vote) s')
    (hvoters : SameKind .claimVoters s s') (hnone : s.getVote claimId voter = none)
    (hmem : voter ∈ s.getClaimVoters claimId) (hclaimant : claim'.claimant = claim.claimant)
    (happ : claim'.approveVotes = (claim.tally vote 1).approveVotes)
    (hrej : claim'.rejectVotes = (claim.tally vote 1).rejectVotes) :
    BallotsAt s' claimId claim' := by
  have hlt : ∀ v, s.ballots claimId v < (s.getClaimVoters claimId).length :=
    fun v => ballots_lt_of_mem h.eligible hmem hnone
  have hsum : ∀ v, s'.ballots claimId v = (if vote = v then 1 else 0) + s.ballots claimId v := by
    intro v
    rw [ballots_of_same hvote, ballots_setVote hnone]
    simp
  refine ⟨?_, ?_, ?_, ?_, ?_⟩
  · rw [happ, hsum]
    cases vote with
    | approve =>
      change saturatingAdd32 claim.approveVotes 1 = _
      rw [h.approve, saturatingAdd32_one (hlt .approve) h.bound, if_pos rfl, Nat.add_comm]
    | reject =>
      change claim.approveVotes = _
      rw [h.approve, if_neg (by decide), Nat.zero_add]
  · rw [hrej, hsum]
    cases vote with
    | approve =>
      change claim.rejectVotes = _
      rw [h.reject, if_neg (by decide), Nat.zero_add]
    | reject =>
      change saturatingAdd32 claim.rejectVotes 1 = _
      rw [h.reject, saturatingAdd32_one (hlt .reject) h.bound, if_pos rfl, Nat.add_comm]
  · intro a ha
    rw [getClaimVoters_of_same hvoters]
    by_cases heq : a = voter
    · rw [heq]
      exact hmem
    · rw [getVote_of_same hvote] at ha
      refine h.eligible a ?_
      simpa [State.getVote, State.setVote, heq] using ha
  · rw [getClaimVoters_of_same hvoters, hclaimant]
    exact h.claimant
  · rw [getClaimVoters_of_same hvoters]
    exact h.bound

theorem BallotsAt.of_other {id : Nat} {voter : Address} {vote : VoteOption}
    (h : BallotsAt s id claim)
    (hne : id ≠ claimId) (hvote : SameKind .vote (s.setVote claimId voter vote) s')
    (hvoters : SameKind .claimVoters s s') (hnone : s.getVote claimId voter = none) :
    BallotsAt s' id claim := by
  have hsame : ∀ v, s'.ballots id v = s.ballots id v := by
    intro v
    rw [ballots_of_same hvote, ballots_setVote hnone, if_neg (fun hc => hne hc.1.symm),
      Nat.zero_add]
  refine ⟨by rw [hsame, h.approve], by rw [hsame, h.reject], fun a ha => ?_, ?_, ?_⟩
  · rw [getClaimVoters_of_same hvoters]
    rw [getVote_of_same hvote] at ha
    refine h.eligible a ?_
    simpa [State.getVote, State.setVote, hne] using ha
  · rw [getClaimVoters_of_same hvoters]
    exact h.claimant
  · rw [getClaimVoters_of_same hvoters]
    exact h.bound

/-- A member of the electorate casts its ballot on a claim in `Processing`. -/
theorem ballotStep_of_ballot {voter : Address} {vote : VoteOption} (hk : s.ClaimsKeyed)
    (hclaim : s.getClaim claimId = some claim) (hproc : claim.status = .processing)
    (hnone : s.getVote claimId voter = none) (hmem : voter ∈ s.getClaimVoters claimId)
    (hwrite : SameKind .claim (s.setClaim claim') s') (hid : claim'.claimId = claim.claimId)
    (hclaimant : claim'.claimant = claim.claimant)
    (happ : claim'.approveVotes = (claim.tally vote 1).approveVotes)
    (hrej : claim'.rejectVotes = (claim.tally vote 1).rejectVotes)
    (hvote : SameKind .vote (s.setVote claimId voter vote) s')
    (hvoters : SameKind .claimVoters s s') : BallotStep s s' := by
  have hkey : claim'.claimId = claimId := by rw [hid, (hk _ _ hclaim).1]
  constructor
  · rintro ⟨hno, hat⟩
    refine ⟨fun id hid a => ?_, fun id c hc => ?_⟩
    · rw [getClaim_of_write hwrite, hkey] at hid
      split at hid
      · cases hid
      · rename_i hne
        rw [getVote_of_same hvote]
        simpa [State.getVote, State.setVote, hne] using hno id hid a
    · rw [getClaim_of_write hwrite, hkey] at hc
      split at hc
      · rename_i heq
        cases hc
        subst heq
        exact (hat id claim hclaim).of_ballot hvote hvoters hnone hmem hclaimant happ hrej
      · rename_i hne
        exact (hat id c hc).of_other hne hvote hvoters hnone
  · intro id c hc
    rw [getClaim_of_write hwrite, hkey]
    split
    · rename_i heq
      subst heq
      rw [hclaim] at hc
      cases hc
      exact ⟨claim', rfl, getClaimVoters_of_same hvoters id, fun h => absurd hproc h⟩
    · exact ⟨c, hc, getClaimVoters_of_same hvoters id, fun h => ⟨h, rfl, rfl⟩⟩

/-- A new claim has no ballots and an electorate without the claimant. -/
theorem ballotStep_of_file {voters : List Address} (hk : s.ClaimsKeyed)
    (hid : claim.claimId = s.getClaimCounter + 1) (happ : claim.approveVotes = 0)
    (hrej : claim.rejectVotes = 0) (hclaimant : claim.claimant ∉ voters)
    (hlen : voters.length ≤ U32_MAX) (hwrite : SameKind .claim (s.setClaim claim) s')
    (hvoters : SameKind .claimVoters (s.set (.claimVoters claim.claimId) voters) s')
    (hvote : SameKind .vote s s') : BallotStep s s' := by
  have hfresh : s.getClaim claim.claimId = none := hk.unfiled (by omega)
  have hself : s'.getClaimVoters claim.claimId = voters := by
    rw [getClaimVoters_of_same hvoters]
    simp [State.getClaimVoters]
  have hother : ∀ id, id ≠ claim.claimId → s'.getClaimVoters id = s.getClaimVoters id := by
    intro id hne
    rw [getClaimVoters_of_same hvoters]
    simp [State.getClaimVoters, hne]
  constructor
  · rintro ⟨hno, hat⟩
    refine ⟨fun id hid a => ?_, fun id c hc => ?_⟩
    · rw [getClaim_of_write hwrite] at hid
      split at hid
      · cases hid
      · rw [getVote_of_same hvote]
        exact hno id hid a
    · rw [getClaim_of_write hwrite] at hc
      split at hc
      · rename_i heq
        cases hc
        subst heq
        have hnone : ∀ a, s'.getVote claim.claimId a = none := by
          intro a
          rw [getVote_of_same hvote]
          exact hno _ hfresh a
        refine ⟨?_, ?_, fun a ha => absurd (hnone a) ha, by rwa [hself], by rwa [hself]⟩
        · rw [happ, ballots_eq_zero hnone]
        · rw [hrej, ballots_eq_zero hnone]
      · rename_i hne
        obtain ⟨h₁, h₂, h₃, h₄, h₅⟩ := hat id c hc
        refine ⟨by rw [h₁, ballots_of_same hvote], by rw [h₂, ballots_of_same hvote], ?_, ?_, ?_⟩
        · intro a ha
          rw [getVote_of_same hvote] at ha
          rw [hother id hne]
          exact h₃ a ha
        · rwa [hother id hne]
        · rwa [hother id hne]
  · intro id c hc
    have hne : id ≠ claim.claimId := by
      rintro rfl
      rw [hfresh] at hc
      cases hc
    rw [getClaim_of_write hwrite, if_neg hne]
    exact ⟨c, hc, hother id hne, fun h => ⟨h, rfl, rfl⟩⟩

end Writes

/-! ## The cap on electorates -/

theorem maxVoters_of_same {s s' : State} (h : SameKind .maxVoters s s')
    (hs : s.getMaxVotersPerClaim ≤ U32_MAX) : s'.getMaxVotersPerClaim ≤ U32_MAX := by
  rwa [State.getMaxVotersPerClaim, h .maxVotersPerClaim rfl]

theorem maxVoters_of_setting {env : Env} {s s' : State} {c : Setting} (h : c.exec env s = .ok s')
    (hs : s.getMaxVotersPerClaim ≤ U32_MAX) : s'.getMaxVotersPerClaim ≤ U32_MAX := by
  cases c with
  | adminSetMaxVotersPerClaim cap =>
    obtain ⟨s₁, -, -, rfl⟩ := configure_eq_ok h
    have hcap := UInt32.toNat_lt cap
    have hget : (s₁.writeAll [⟨.maxVotersPerClaim, some cap.toNat⟩]).getMaxVotersPerClaim =
        cap.toNat := by
      simp [State.writeAll, State.setOrRemove, State.getMaxVotersPerClaim]
    rw [hget, U32_MAX]
    omega
  | _ => exact maxVoters_of_same ((frame_settingOf h).sameKind rfl) hs

/-- The cap on electorates is a `u32` in every run. -/
theorem maxVoters_of_reach {host : Host} {s : State} (h : (contract host).Reach always s) :
    s.getMaxVotersPerClaim ≤ U32_MAX := by
  refine h.invariant (I := fun s => s.getMaxVotersPerClaim ≤ U32_MAX) ?_ ?_
  · intro s hs
    rw [State.getMaxVotersPerClaim, State.Fresh.get host hs]
    decide
  · intro s l s' _ hstep hs
    cases l with
    | closeLedger n =>
      obtain ⟨-, -, rfl⟩ := hstep
      exact hs
    | tokens b a =>
      obtain ⟨-, rfl⟩ := hstep
      exact hs
    | call env c =>
      obtain ⟨-, hexec⟩ := hstep
      have hf := frame_exec hexec
      cases c with
      | claim c => exact maxVoters_of_same (hf.sameKind (c.untouched rfl)) hs
      | policy c => exact maxVoters_of_same (hf.sameKind (c.untouched rfl)) hs
      | treasury c => exact maxVoters_of_same (hf.sameKind (c.untouched rfl)) hs
      | setting c => exact maxVoters_of_setting hexec hs
      | governance c => exact maxVoters_of_same (hf.sameKind (c.untouched rfl)) hs

/-! ## Steps -/

/-- The condition on a step: a ballot is cast on a claim in `Processing`, and a revealed one by
a member of the claim's electorate. -/
def CastsOnOpen (s : State) : Label → Prop
  | .call _ (.claim (.voteOnClaim _ claimId _)) =>
    ∀ claim, s.getClaim claimId = some claim → claim.status = .processing
  | .call _ (.claim (.revealVote voter claimId _ _)) =>
    ∀ claim, s.getClaim claimId = some claim →
      claim.status = .processing ∧ voter ∈ s.getClaimVoters claimId
  | _ => True

/-- What is known of every reached state. -/
structure BallotFacts (s : State) : Prop where
  keyed : s.ClaimsKeyed
  weight : ∀ claimId voter, s.votingPowerFor claimId voter 1 = .ok 1
  cap : s.getMaxVotersPerClaim ≤ U32_MAX

theorem ballotFacts_of_reach {host : Host} {s : State} (h : (contract host).Reach always s) :
    BallotFacts s :=
  ⟨claimsKeyed_of_reach h, votingPowerFor_of_reach h, maxVoters_of_reach h⟩

section Calls

variable {env : Env} {s s' : State}

theorem tallies_tally (claim : Claim) (vote : VoteOption) (w : Nat) :
    (claim.tally vote w).claimId = claim.claimId ∧
      (claim.tally vote w).claimant = claim.claimant := by
  cases vote <;> exact ⟨rfl, rfl⟩

theorem tallies_tallyAppeal (claim : Claim) (vote : VoteOption) (w : Nat) :
    (claim.tallyAppeal vote w).claimant = claim.claimant ∧
      (claim.tallyAppeal vote w).approveVotes = claim.approveVotes ∧
      (claim.tallyAppeal vote w).rejectVotes = claim.rejectVotes := by
  cases vote <;> exact ⟨rfl, rfl, rfl⟩

theorem AppealStep.ballotStep {claimId : Nat} {claim claim' : Claim}
    (happeal : AppealStep s s' claim')
    (hk : s.ClaimsKeyed) (hclaim : s.getClaim claimId = some claim)
    (hst : claim.status = .underAppeal) (hid : claim'.claimId = claim.claimId)
    (hclaimant : claim'.claimant = claim.claimant)
    (happ : claim'.approveVotes = claim.approveVotes)
    (hrej : claim'.rejectVotes = claim.rejectVotes) (hst' : claim'.status = claim.status)
    (hvote : SameKind .vote s s') (hvoters : SameKind .claimVoters s s') : BallotStep s s' := by
  cases happeal with
  | voting hrec _ =>
    refine ballotStep_of_rewrite hk hclaim hrec hid hclaimant happ hrej (fun _ => ?_) hvote hvoters
    rw [hst', hst]
    decide
  | decided outcome x y hout hrec _ =>
    refine ballotStep_of_rewrite hk hclaim hrec hid hclaimant happ hrej (fun _ => ?_) hvote hvoters
    change outcome ≠ .processing
    rcases hout with rfl | rfl <;> decide

theorem ballotStep_of_finalizeClaimInner {claimId : Nat} {st : ClaimStatus} (hk : s.ClaimsKeyed)
    (h : finalizeClaimInner s claimId = .ok (st, s')) : BallotStep s s' := by
  have hf := frame_finalizeClaimInner h
  obtain ⟨claim, hclaim, -, hclosed⟩ := finalizeClaimInner_cases h
  obtain ⟨x, y, z, hrec⟩ := hclosed.record
  refine ballotStep_of_rewrite hk hclaim hrec rfl rfl rfl rfl (fun _ => ?_) (hf.sameKind rfl)
    (hf.sameKind rfl)
  change s.deadlineOutcome claimId claim ≠ .processing
  rcases s.deadlineOutcome_cases claimId claim with hout | hout <;> rw [hout] <;> decide

theorem ballotStep_of_voteOnClaim {voter : Address} {claimId : Nat} {vote : VoteOption}
    {st : ClaimStatus} (hfacts : BallotFacts s)
    (hproc : ∀ claim, s.getClaim claimId = some claim → claim.status = .processing)
    (h : voteOnClaim s voter claimId vote = .ok (st, s')) : BallotStep s s' := by
  have hf := frame_voteOnClaim h
  obtain ⟨claim, w, hclaim, hcheck, hw, hcase⟩ := voteOnClaim_cases h
  obtain ⟨-, -, -, -, hmem, -, -, -, hnone⟩ := checkBallot_eq_ok.mp hcheck
  rw [hfacts.weight] at hw
  cases hw
  obtain ⟨hid, hclaimant⟩ := tallies_tally claim vote 1
  have hst := hproc claim hclaim
  have hvoters : SameKind .claimVoters s s' := hf.sameKind rfl
  rcases hcase with ⟨-, rfl⟩ | ⟨outcome, -, hclosed⟩
  · refine ballotStep_of_ballot hfacts.keyed hclaim hst hnone hmem (SameKind.set (by simp) _ _) hid
      hclaimant rfl rfl ?_ hvoters
    rw [SameKind.set_iff rfl]
    exact .refl _ _
  · obtain ⟨x, y, z, hrec⟩ := hclosed.record
    refine ballotStep_of_ballot hfacts.keyed hclaim hst hnone hmem
      (SameKind.trans (SameKind.set (by simp) _ _) hrec) hid hclaimant rfl rfl ?_ hvoters
    exact hclosed.frame.sameKind rfl

/-- **What a claim call does to the ballots.** -/
theorem ballotStep_of_claimCall {c : ClaimCall} (h : c.exec env s = .ok s')
    (hok : CastsOnOpen s (.call env (.claim c))) (hfacts : BallotFacts s) : BallotStep s s' := by
  have hk := hfacts.keyed
  have hran := ran_of_exec h
  have hf := frame_claimCall h
  cases c with
  | fileClaim =>
    obtain ⟨claimId, hran⟩ := hran
    obtain ⟨policy, voters, deadline, -, -, -, hid, hnot, hlen, hrec, -, hvoters, -⟩ :=
      fileClaim_eq_ok hran
    exact ballotStep_of_file hk hid rfl rfl hnot (le_trans hlen hfacts.cap) hrec hvoters
      (hf.sameKind rfl)
  | withdrawClaim =>
    obtain ⟨claim, hclaim, -, -, -, hrec, -⟩ := withdrawClaim_eq_ok hran
    exact ballotStep_of_rewrite hk hclaim hrec rfl rfl rfl rfl (fun _ hst => by cases hst)
      (hf.sameKind rfl) (hf.sameKind rfl)
  | addClaimEvidence =>
    obtain ⟨claim, hclaim, -, hrec⟩ := addClaimEvidence_eq_ok hran
    exact ballotStep_of_rewrite hk hclaim hrec rfl rfl rfl rfl (fun hst => hst)
      (hf.sameKind rfl) (hf.sameKind rfl)
  | voteOnClaim =>
    obtain ⟨st, hran⟩ := hran
    exact ballotStep_of_voteOnClaim hfacts hok hran
  | finalizeClaim =>
    obtain ⟨st, hran⟩ := hran
    exact ballotStep_of_finalizeClaimInner hk hran
  | processDeadline =>
    obtain ⟨-, st, hran⟩ := hran
    exact ballotStep_of_finalizeClaimInner hk hran
  | finalizeExpiredBatch =>
    obtain ⟨n, m, t, hloop, rfl⟩ := hran
    have hboth := finalizeBatchLoop_keeps (I := fun t => t.ClaimsKeyed ∧ BallotStep s t) ?_ _ s 0 0
      hloop ⟨hk, ballotStep_of_same (.refl _ s) (.refl _ s) (.refl _ s)⟩
    · exact hboth.2.trans (ballotStep_of_same (by simp) (by simp) (by simp))
    · rintro t t' claimId st - hfin ⟨hkt, ht⟩
      exact ⟨claimsKeyed_of_rewrites (rewrites_of_finalizeClaimInner hfin)
        ((frame_finalizeClaimInner hfin).sameKind rfl) hkt,
        ht.trans (ballotStep_of_finalizeClaimInner hkt hfin)⟩
  | escalateClaim =>
    obtain ⟨claim, hclaim, -, hrec⟩ := escalateClaim_eq_ok hran
    exact ballotStep_of_rewrite hk hclaim hrec rfl rfl rfl rfl (fun hst => hst)
      (hf.sameKind rfl) (hf.sameKind rfl)
  | processClaim =>
    obtain ⟨claim, failed, hclaim, -, -, -, hrec, -⟩ := processClaim_eq_ok hran
    cases failed with
    | false =>
      exact ballotStep_of_rewrite hk hclaim hrec rfl rfl rfl rfl (fun _ hst => by cases hst)
        (hf.sameKind rfl) (hf.sameKind rfl)
    | true =>
      exact ballotStep_of_rewrite hk hclaim hrec rfl rfl rfl rfl (fun _ hst => by cases hst)
        (hf.sameKind rfl) (hf.sameKind rfl)
  | processPayoutTimeout =>
    obtain ⟨st, hran⟩ := hran
    obtain ⟨claim, hclaim, -, hrec, -⟩ := processPayoutTimeout_eq_ok hran
    exact ballotStep_of_rewrite hk hclaim hrec rfl rfl rfl rfl (fun _ hst => by cases hst)
      (hf.sameKind rfl) (hf.sameKind rfl)
  | disputeClaim =>
    obtain ⟨claim, hclaim, -, hrec⟩ := disputeClaim_eq_ok hran
    exact ballotStep_of_rewrite hk hclaim hrec rfl rfl rfl rfl (fun _ hst => by cases hst)
      (hf.sameKind rfl) (hf.sameKind rfl)
  | disburseInstallment claimId amount =>
    obtain ⟨claim, p, hclaim, -, -, -, -, -, -, hlast, hmore⟩ := disburseInstallment_eq_ok hran
    by_cases hcomp : claim.Completes amount
    · exact ballotStep_of_rewrite hk hclaim (hlast hcomp).1 rfl rfl rfl rfl
        (fun _ hst => by cases hst) (hf.sameKind rfl) (hf.sameKind rfl)
    · exact ballotStep_of_rewrite hk hclaim (hmore hcomp).1 rfl rfl rfl rfl (fun hst => hst)
        (hf.sameKind rfl) (hf.sameKind rfl)
  | openAppeal =>
    obtain ⟨claim, deadline, hclaim, -, hrec, -⟩ := openAppeal_eq_ok hran
    exact ballotStep_of_rewrite hk hclaim hrec rfl rfl rfl rfl (fun _ hst => by cases hst)
      (hf.sameKind rfl) (hf.sameKind rfl)
  | voteOnAppeal voter claimId vote =>
    obtain ⟨st, hran⟩ := hran
    obtain ⟨claim, hclaim, hst, happeal⟩ := voteOnAppeal_eq_ok hran
    obtain ⟨hclaimant, happ, hrej⟩ := tallies_tallyAppeal claim vote 1
    exact happeal.ballotStep hk hclaim hst (claimId_tallyAppeal ..) hclaimant happ hrej
      (status_tallyAppeal ..) (hf.sameKind rfl) (hf.sameKind rfl)
  | finalizeAppeal =>
    obtain ⟨st, hran⟩ := hran
    obtain ⟨claim, hclaim, hst, happeal⟩ := finalizeAppeal_eq_ok hran
    exact happeal.ballotStep hk hclaim hst rfl rfl rfl rfl rfl (hf.sameKind rfl) (hf.sameKind rfl)
  | revealVote voter claimId vote =>
    obtain ⟨claim, hclaim, hnone, hrec, hvote⟩ := revealVote_eq_ok hran
    obtain ⟨hst, hmem⟩ := hok claim hclaim
    obtain ⟨hid, hclaimant⟩ := tallies_tally claim vote 1
    exact ballotStep_of_ballot hk hclaim hst hnone hmem hrec hid hclaimant rfl rfl hvote
      (hf.sameKind rfl)
  | refreshSnapshot | setClaimFraudScore | setCommitRevealPhases | commitVote | delegateVote =>
    exact ballotStep_of_same (hf.sameKind rfl) (hf.sameKind rfl) (hf.sameKind rfl)

end Calls

/-! ## Runs -/

theorem ballotStep_of_step {host : Host} (s : State) (l : Label) (s' : State)
    (hfacts : BallotFacts s) (hok : CastsOnOpen s l) (hstep : (contract host).step s l s') :
    BallotStep s s' := by
  cases l with
  | closeLedger n =>
    obtain ⟨-, -, rfl⟩ := hstep
    exact ballotStep_of_same (fun _ _ => rfl) (fun _ _ => rfl) (fun _ _ => rfl)
  | tokens b a =>
    obtain ⟨-, rfl⟩ := hstep
    exact ballotStep_of_same (fun _ _ => rfl) (fun _ _ => rfl) (fun _ _ => rfl)
  | call env c =>
    have hf := frame_exec hstep.2
    cases c with
    | policy c =>
      exact ballotStep_of_same (hf.sameKind (c.untouched rfl)) (hf.sameKind (c.untouched rfl))
        (hf.sameKind (c.untouched rfl))
    | treasury c =>
      exact ballotStep_of_same (hf.sameKind (c.untouched rfl)) (hf.sameKind (c.untouched rfl))
        (hf.sameKind (c.untouched rfl))
    | setting c => exact ballotStep_of_same (hf.sameKind rfl) (hf.sameKind rfl) (hf.sameKind rfl)
    | governance c =>
      exact ballotStep_of_same (hf.sameKind (c.untouched rfl)) (hf.sameKind (c.untouched rfl))
        (hf.sameKind (c.untouched rfl))
    | claim c => exact ballotStep_of_claimCall hstep.2 hok hfacts

/-- From a reached state on, the tallies of the claims that have left `Processing` and all
electorates stay. -/
theorem frozen_of_steps {host : Host} {s t : State} (h : (contract host).Reach CastsOnOpen s)
    (hrun : (contract host).Steps CastsOnOpen s t) : Frozen s t := by
  have hboth := Machine.Steps.invariant
    (I := fun t => (contract host).Reach CastsOnOpen t ∧ Frozen s t) ?_ hrun ⟨h, .refl s⟩
  · exact hboth.2
  · rintro u l v hok hstep ⟨hu, hfro⟩
    have hone := ballotStep_of_step u l v (ballotFacts_of_reach hu.to_always) hok hstep
    exact ⟨hu.tail hok hstep, hfro.trans hone.frozen⟩

/-- **Ballots are counted once, for members of the electorate, while the claim is open.**  In
every run whose ballots are cast on claims in `Processing`, and revealed by members of the
claim's electorate, the tallies of every claim are the numbers of its stored ballots, every
voter is in the electorate and is not the claimant; and in every state reached from there the
electorate is the same, and the tallies of a claim that has left `Processing` are the same. -/
theorem ballots_exact_of_reach {host : Host} {s : State}
    (h : (contract host).Reach CastsOnOpen s) {id : Nat} {claim : Claim}
    (hclaim : s.getClaim id = some claim) :
    (claim.approveVotes = s.ballots id .approve ∧ claim.rejectVotes = s.ballots id .reject ∧
      ∀ voter, s.getVote id voter ≠ none →
        voter ∈ s.getClaimVoters id ∧ voter ≠ claim.claimant) ∧
      ∀ t, (contract host).Steps CastsOnOpen s t →
        ∃ claim', t.getClaim id = some claim' ∧ t.getClaimVoters id = s.getClaimVoters id ∧
          (claim.status ≠ .processing → claim'.approveVotes = claim.approveVotes ∧
            claim'.rejectVotes = claim.rejectVotes) := by
  have hexact : BallotsExact s := by
    refine h.invariant_with (J := BallotFacts) (I := BallotsExact)
      (fun s hs => ballotFacts_of_reach hs.to_always) ?_ ?_
    · intro s hs
      refine ⟨fun id _ voter => State.Fresh.get host hs _, fun id c hc => ?_⟩
      have hnone : s.getClaim id = none := State.Fresh.get host hs _
      rw [hnone] at hc
      cases hc
    · intro s l s' hfacts hok hstep hs
      exact (ballotStep_of_step s l s' hfacts hok hstep).exact hs
  have hat := hexact.2 id claim hclaim
  refine ⟨⟨hat.approve, hat.reject, fun voter hv => ⟨hat.eligible voter hv, ?_⟩⟩, fun t ht => ?_⟩
  · rintro rfl
    exact hat.claimant (hat.eligible _ hv)
  · obtain ⟨claim', hclaim', hvoters, hkeep⟩ := frozen_of_steps h ht id claim hclaim
    exact ⟨claim', hclaim', hvoters, fun hst => (hkeep hst).2⟩

/-- A check for `CastsOnOpen`. -/
def castsOnOpen (s : State) : Label → Bool
  | .call _ (.claim (.voteOnClaim _ claimId _)) =>
    (s.getClaim claimId).all fun claim => claim.status == .processing
  | .call _ (.claim (.revealVote ..)) => false
  | _ => true

theorem castsOnOpen_of_check (s : State) (l : Label) (h : castsOnOpen s l = true) :
    CastsOnOpen s l := by
  unfold castsOnOpen at h
  unfold CastsOnOpen
  split
  · intro claim hclaim
    simpa [hclaim] using h
  · cases h
  · trivial

/-- A run that meets the condition: a claim is filed and a ballot is cast on it. -/
theorem ballots_exact_one_ballot :
    ∃ s claim, (contract demoHost).Reach CastsOnOpen s ∧ s.getClaim 1 = some claim ∧
      s.getVote 1 2 = some .approve ∧ claim.approveVotes = s.ballots 1 .approve ∧
      2 ∈ s.getClaimVoters 1 := by
  obtain ⟨s, hreach, hval⟩ := exists_of_follow castsOnOpen_of_check (deployed 0)
    (filedTrace ++ [demoCall (.claim (.voteOnClaim 2 1 .approve))])
    (f := fun s => ((s.getClaim 1).isSome, s.getVote 1 2)) (a := (true, some .approve))
    (fresh_deployed (by decide)) (by simp [filedTrace, demoSetup, demoInit, demoBind, demoFile])
    (by decide +kernel)
  simp only [Prod.mk.injEq, Option.isSome_iff_exists] at hval
  obtain ⟨⟨claim, hclaim⟩, hvote⟩ := hval
  obtain ⟨⟨happ, -, hmem⟩, -⟩ := ballots_exact_of_reach hreach hclaim
  exact ⟨s, claim, hreach, hclaim, hvote, happ, (hmem 2 (by simp [hvote])).1⟩

/-- The run in which account 1 votes on its own claim: it commits to approve, account 2 rejects
the claim, and in the reveal phase account 1 reveals its ballot. -/
def selfRevealTrace : List Label :=
  filedTrace ++ [demoCall (.claim (.setCommitRevealPhases 1 1500 3000)),
    demoCall (.claim (.commitVote 1 1 demoCommitment)),
    demoCall (.claim (.voteOnClaim 2 1 .reject)), .closeLedger 1600]

/-- **A revealed ballot of the claimant is counted on a claim that is already rejected.** -/
theorem ballots_self_revealed :
    ∃ s s' claim claim', (contract demoHost).Reach always s ∧
      (contract demoHost).step s (demoCall (.claim (.revealVote 1 1 .approve demoSalt))) s' ∧
      s.getClaim 1 = some claim ∧ s'.getClaim 1 = some claim' ∧ claim.status = .rejected ∧
      claim.approveVotes = 0 ∧ claim'.approveVotes = 1 ∧ claim'.claimant = 1 ∧
      s'.getVote 1 1 = some .approve ∧ 1 ∉ s'.getClaimVoters 1 := by
  obtain ⟨s, s', hreach, hstep, hval⟩ := exists_of_followCall always_of_noCheck
    (deployed 0) selfRevealTrace
    (c := .claim (.revealVote 1 1 .approve demoSalt))
    (f := fun s s' => ((s.getClaim 1).map fun c => (c.status, c.approveVotes),
      (s'.getClaim 1).map fun c => (c.approveVotes, c.claimant), s'.getVote 1 1,
      decide (1 ∉ s'.getClaimVoters 1)))
    (a := (some (.rejected, 0), some (1, 1), some .approve, true)) (fresh_deployed (by decide))
    (by simp [selfRevealTrace, filedTrace, demoSetup, demoInit, demoBind, demoFile])
    (by decide +kernel)
  simp only [Prod.mk.injEq, Option.map_eq_some_iff, decide_eq_true_eq] at hval
  obtain ⟨⟨claim, hclaim, hst, happ⟩, ⟨claim', hclaim', happ', hclaimant⟩, hvote, hmem⟩ := hval
  exact ⟨s, s', claim, claim', hreach, hstep, hclaim, hclaim', hst, happ, happ',
    hclaimant, hvote, hmem⟩

end NiffyInsure
