import NiffyInsure.ClaimVoting.Delegations

/-!
# The ballots of the claim-voting contract

`cast_vote` tallies the ballot of the caller and then walks the list of its delegators.  The list
may be out of date or name an address twice; what keeps the count right is the map of who has voted,
which the loop reads and writes at every entry, and the forward delegation.

* `castDelegated_fits`: the loop invariant.
* `castVote_tallies`: what a call tallies.
* `ballots_counted_of_reach`: in every reached state the tallies add up to the addresses marked
  voted, which are in the snapshot and have one ballot each.
-/

namespace NiffyInsure.ClaimVoting

open Machine

/-! ## The map of who has voted -/

namespace Voted

variable {voted : Voted} {a b : Address}

theorem has_insert : (Voted.has (voted.insert a true) b = true) ↔ b = a ∨ voted.has b = true := by
  unfold Voted.has
  by_cases h : b = a
  · subst h
    simp
  · rw [AList.lookup_insert_ne h]
    simp [h]

theorem mem_marked : a ∈ voted.marked ↔ voted.has a = true := by
  unfold Voted.marked Voted.has
  rw [List.mem_map]
  constructor
  · rintro ⟨⟨k, v⟩, hmem, rfl⟩
    rw [List.mem_filter] at hmem
    have hlook : voted.lookup k = some v := AList.mem_lookup_iff.mpr hmem.1
    rw [hlook]
    exact hmem.2
  · intro h
    cases hlook : voted.lookup a with
    | none =>
      rw [hlook] at h
      cases h
    | some v =>
      rw [hlook] at h
      exact ⟨⟨a, v⟩, List.mem_filter.mpr ⟨AList.mem_lookup_iff.mp hlook, h⟩, rfl⟩

theorem nodup_marked (voted : Voted) : voted.marked.Nodup :=
  List.NodupKeys.sublist List.filter_sublist voted.nodupKeys

end Voted

/-! ## One call -/

section Loop

variable {s : State} {voter : Address} {choice : VoteChoice} {claim : Claim} {voted : Voted}

/-- What the call of `voter` has done so far, from `claim` and `voted`: it has tallied one ballot
each for addresses of the snapshot that had not voted, the caller's own or delegated to the
caller. -/
structure Count.Fits (n : Count) (s : State) (voter : Address) (choice : VoteChoice)
    (claim : Claim) (voted : Voted) : Prop where
  snapshot : n.claim.voterSnapshot = claim.voterSnapshot
  votesFor : n.claim.votesFor =
    claim.votesFor + if choice = .For then n.tallied.length else 0
  votesAgainst : n.claim.votesAgainst =
    claim.votesAgainst + if choice = .Against then n.tallied.length else 0
  has : ∀ a, n.voted.has a = true ↔ voted.has a = true ∨ a ∈ n.tallied
  nodup : n.tallied.Nodup
  unvoted : ∀ a ∈ n.tallied, voted.has a = false
  listed : ∀ a ∈ n.tallied, a ∈ claim.voterSnapshot
  entitled : ∀ a ∈ n.tallied, a = voter ∨ s.delegatesTo a voter = true

theorem Count.Fits.start : Count.Fits ⟨claim, voted, []⟩ s voter choice claim voted where
  snapshot := rfl
  votesFor := by simp
  votesAgainst := by simp
  has a := by simp
  nodup := List.nodup_nil
  unvoted a h := by cases h
  listed a h := by cases h
  entitled a h := by cases h

theorem tally_eq_ok {claim' : Claim} (h : claim.tally choice = .ok claim') :
    claim'.voterSnapshot = claim.voterSnapshot ∧
      claim'.votesFor = claim.votesFor + (if choice = .For then 1 else 0) ∧
      claim'.votesAgainst = claim.votesAgainst + (if choice = .Against then 1 else 0) := by
  cases choice with
  | For =>
    unfold Claim.tally at h
    dsimp only at h
    split at h
    · cases h
      exact ⟨rfl, rfl, rfl⟩
    · cases h
  | Against =>
    unfold Claim.tally at h
    dsimp only at h
    split at h
    · cases h
      exact ⟨rfl, rfl, rfl⟩
    · cases h

theorem Count.Fits.add {n n' : Count} {a : Address} (hn : n.Fits s voter choice claim voted)
    (h : n.add a choice = .ok n') (hlisted : a ∈ n.claim.voterSnapshot)
    (hunvoted : n.voted.has a = false) (hent : a = voter ∨ s.delegatesTo a voter = true) :
    n'.Fits s voter choice claim voted := by
  obtain ⟨claim', htally, h⟩ := bind_eq_ok.mp h
  cases h
  obtain ⟨hsnap, hfor, hagainst⟩ := tally_eq_ok htally
  have hnew : ¬ (voted.has a = true ∨ a ∈ n.tallied) := by
    rw [← hn.has, hunvoted]
    decide
  rw [not_or, Bool.not_eq_true] at hnew
  constructor
  · exact hsnap.trans hn.snapshot
  · rw [hfor, hn.votesFor, List.length_append]
    split <;> simp [Nat.add_assoc]
  · rw [hagainst, hn.votesAgainst, List.length_append]
    split <;> simp [Nat.add_assoc]
  · intro b
    rw [Voted.has_insert, hn.has, List.mem_append, List.mem_singleton]
    tauto
  · rw [List.nodup_append]
    refine ⟨hn.nodup, List.nodup_singleton a, ?_⟩
    intro b hb c hc heq
    rw [List.mem_singleton] at hc
    exact hnew.2 (hc ▸ heq ▸ hb)
  · intro b hb
    rcases List.mem_append.mp hb with hb | hb
    · exact hn.unvoted b hb
    · rw [List.mem_singleton.mp hb]
      exact hnew.1
  · intro b hb
    rcases List.mem_append.mp hb with hb | hb
    · exact hn.listed b hb
    · rw [List.mem_singleton.mp hb, ← hn.snapshot]
      exact hlisted
  · intro b hb
    rcases List.mem_append.mp hb with hb | hb
    · exact hn.entitled b hb
    · rw [List.mem_singleton.mp hb]
      exact hent

/-- **The loop over the delegators**, whatever the list holds. -/
theorem castDelegated_fits :
    ∀ (delegators : List Address) {n n' : Count}, n.Fits s voter choice claim voted →
      s.castDelegated voter choice delegators n = .ok n' → n'.Fits s voter choice claim voted := by
  intro delegators
  induction delegators with
  | nil =>
    intro n n' hn h
    cases h
    exact hn
  | cons delegator rest ih =>
    intro n n' hn h
    unfold State.castDelegated at h
    split at h
    · exact ih hn h
    · rename_i hlisted
      split at h
      · exact ih hn h
      · rename_i hunvoted
        split at h
        · exact ih hn h
        · rename_i hactive
          obtain ⟨n₁, hadd, h⟩ := bind_eq_ok.mp h
          rw [not_not] at hlisted
          rw [Bool.not_eq_true] at hunvoted
          rw [Bool.not_eq_false] at hactive
          exact ih (hn.add hadd hlisted hunvoted (.inr hactive)) h

end Loop

section Calls

variable {s s' : State} {auths : Address → Bool} {voter : Address} {claimId : Nat}
  {choice : VoteChoice}

/-- **What `cast_vote` tallies.** -/
theorem castVote_tallies (h : s.castVote auths voter claimId choice = .ok s') :
    ∃ claim n, auths voter = true ∧ s.claim claimId = some claim ∧
      Count.Fits n s voter choice claim (s.voted claimId) ∧
      s' = { s with
        voted := Function.update s.voted claimId n.voted
        claim := Function.update s.claim claimId (some n.claim)
        ballots := s.ballots ++ n.tallied.map fun a => ⟨claimId, a, voter, choice⟩ } := by
  obtain ⟨claim, n₁, n₂, hauth, hclaim, hlisted, hunvoted, hadd, hloop, hs'⟩ := castVote_eq_ok h
  have hfirst : n₁.Fits s voter choice claim (s.voted claimId) :=
    Count.Fits.start.add hadd hlisted hunvoted (.inl rfl)
  exact ⟨claim, n₂, hauth, hclaim, castDelegated_fits _ hfirst hloop, hs'⟩

end Calls

/-! ## Runs -/

/-- The ballots on the claim `id`. -/
def State.ballotsOn (s : State) (id : Nat) : List Ballot := s.ballots.filter (·.claimId = id)

/-- The claim `id` is stored with the given snapshot and no votes, and nobody has voted on it. -/
structure State.Opens (id : Nat) (voters : List Address) (s : State) : Prop where
  claim : ∃ claim, s.claim id = some claim ∧ claim.voterSnapshot = voters ∧
    claim.votesFor = 0 ∧ claim.votesAgainst = 0
  voted : (s.voted id).marked = []
  ballots : s.ballots = []

/-- The claim `id` is counted: its tallies are those of the ballots, the addresses that have voted
are those with a ballot, and no address has two. -/
structure State.Counted (s : State) (id : Nat) (voters : List Address) (claim : Claim) : Prop where
  stored : s.claim id = some claim
  snapshot : claim.voterSnapshot = voters
  votesFor : claim.votesFor = (s.ballotsOn id).countP (·.choice = .For)
  votesAgainst : claim.votesAgainst = (s.ballotsOn id).countP (·.choice = .Against)
  once : ((s.ballotsOn id).map (·.voter)).Nodup
  has : ∀ a, (s.voted id).has a = true ↔ a ∈ (s.ballotsOn id).map (·.voter)
  listed : ∀ a ∈ (s.ballotsOn id).map (·.voter), a ∈ voters

section Runs

variable {s s' : State} {auths : Address → Bool} {id : Nat} {voters : List Address}
  {claim : Claim}

theorem State.Opens.counted (h : s.Opens id voters) : ∃ claim, s.Counted id voters claim := by
  obtain ⟨claim, hclaim, hsnap, hfor, hagainst⟩ := h.claim
  have hnone : s.ballotsOn id = [] := by
    rw [State.ballotsOn, h.ballots, List.filter_nil]
  refine ⟨claim, hclaim, hsnap, ?_, ?_, ?_, ?_, ?_⟩
  · rw [hnone, hfor, List.countP_nil]
  · rw [hnone, hagainst, List.countP_nil]
  · rw [hnone]
    exact List.nodup_nil
  · intro a
    rw [← Voted.mem_marked, h.voted, hnone, List.map_nil]
  · intro a ha
    rw [hnone] at ha
    cases ha

theorem State.Counted.of_same (h : s.Counted id voters claim) (hclaim : s'.claim id = s.claim id)
    (hvoted : s'.voted id = s.voted id) (hlog : s'.ballotsOn id = s.ballotsOn id) :
    s'.Counted id voters claim where
  stored := hclaim.trans h.stored
  snapshot := h.snapshot
  votesFor := hlog ▸ h.votesFor
  votesAgainst := hlog ▸ h.votesAgainst
  once := hlog ▸ h.once
  has a := by
    rw [hvoted, hlog]
    exact h.has a
  listed := hlog ▸ h.listed

/-- The ballots of one call, as `cast_vote` logs them. -/
def ballotsOf (claimId : Nat) (voter : Address) (choice : VoteChoice) (tallied : List Address) :
    List Ballot := tallied.map fun a => ⟨claimId, a, voter, choice⟩

theorem ballotsOf_filter (claimId : Nat) (voter : Address) (choice : VoteChoice)
    (tallied : List Address) :
    (ballotsOf claimId voter choice tallied).filter (·.claimId = id) =
      if claimId = id then ballotsOf claimId voter choice tallied else [] := by
  split
  · rename_i heq
    rw [List.filter_eq_self]
    intro b hb
    obtain ⟨a, -, rfl⟩ := List.mem_map.mp hb
    simpa using heq
  · rename_i hne
    rw [List.filter_eq_nil_iff]
    intro b hb
    obtain ⟨a, -, rfl⟩ := List.mem_map.mp hb
    simpa using hne

theorem voters_ballotsOf (claimId : Nat) (voter : Address) (choice : VoteChoice)
    (tallied : List Address) :
    (ballotsOf claimId voter choice tallied).map (·.voter) = tallied := by
  rw [ballotsOf, List.map_map]
  exact List.map_id tallied

theorem countP_ballotsOf (claimId : Nat) (voter : Address) (choice c : VoteChoice)
    (tallied : List Address) :
    (ballotsOf claimId voter choice tallied).countP (·.choice = c) =
      if choice = c then tallied.length else 0 := by
  rw [ballotsOf, List.countP_map]
  split
  · rename_i heq
    rw [List.countP_eq_length]
    intro a _
    simpa using heq
  · rename_i hne
    rw [List.countP_eq_zero]
    intro a _
    simpa using hne

/-- **A vote on the claim is counted.** -/
theorem State.Counted.castVote {voter : Address} {choice : VoteChoice}
    (hs : s.Counted id voters claim) (h : s.castVote auths voter id choice = .ok s') :
    ∃ claim', s'.Counted id voters claim' := by
  obtain ⟨claim', n, -, hclaim, hn, hs'⟩ := castVote_tallies h
  rw [hs.stored] at hclaim
  cases hclaim
  have hlog : s'.ballotsOn id = s.ballotsOn id ++ ballotsOf id voter choice n.tallied := by
    rw [hs']
    change (s.ballots ++ ballotsOf id voter choice n.tallied).filter _ = _
    rw [List.filter_append, ballotsOf_filter, if_pos rfl]
    rfl
  have hvoters : (s'.ballotsOn id).map (·.voter) = (s.ballotsOn id).map (·.voter) ++ n.tallied := by
    rw [hlog, List.map_append, voters_ballotsOf]
  refine ⟨n.claim, ?_, hn.snapshot.trans hs.snapshot, ?_, ?_, ?_, ?_, ?_⟩
  · rw [hs']
    exact Function.update_self ..
  · rw [hlog, List.countP_append, countP_ballotsOf, hn.votesFor, hs.votesFor]
  · rw [hlog, List.countP_append, countP_ballotsOf, hn.votesAgainst, hs.votesAgainst]
  · -- nobody that had a ballot gets another one
    rw [hvoters, List.nodup_append]
    refine ⟨hs.once, hn.nodup, ?_⟩
    rintro a ha b hb rfl
    have hvoted := (hs.has a).mpr ha
    rw [hn.unvoted a hb] at hvoted
    cases hvoted
  · intro a
    have hnew : s'.voted id = n.voted := by
      rw [hs']
      exact Function.update_self ..
    rw [hnew, hn.has, hs.has, hvoters, List.mem_append]
  · intro a ha
    rw [hvoters] at ha
    rcases List.mem_append.mp ha with ha | ha
    · exact hs.listed a ha
    · rw [← hs.snapshot]
      exact hn.listed a ha

theorem exec_of_delegation {c : Call} (h : s.exec auths c = .ok s')
    (hc : ∀ voter claimId choice, c ≠ .castVote voter claimId choice) :
    s'.claim = s.claim ∧ s'.voted = s.voted ∧ s'.ballots = s.ballots := by
  cases c with
  | delegateVote =>
    obtain ⟨-, -, -, -, -, rfl⟩ := delegateVote_eq_ok_iff.mp h
    exact ⟨rfl, rfl, rfl⟩
  | revokeVoteDelegation =>
    obtain ⟨-, rfl⟩ | ⟨d, -, rfl⟩ := revokeVoteDelegation_eq_ok h
    · exact ⟨rfl, rfl, rfl⟩
    · exact ⟨rfl, rfl, rfl⟩
  | castVote voter claimId choice => exact absurd rfl (hc voter claimId choice)

theorem State.Counted.exec {c : Call} (hs : s.Counted id voters claim)
    (h : s.exec auths c = .ok s') : ∃ claim', s'.Counted id voters claim' := by
  by_cases hc : ∀ voter claimId choice, c ≠ .castVote voter claimId choice
  · obtain ⟨hclaim, hvoted, hlog⟩ := exec_of_delegation h hc
    refine ⟨claim, hs.of_same (by rw [hclaim]) (by rw [hvoted]) ?_⟩
    rw [State.ballotsOn, hlog]
    rfl
  · push Not at hc
    obtain ⟨voter, claimId, choice, rfl⟩ := hc
    by_cases hid : claimId = id
    · subst hid
      exact hs.castVote h
    · obtain ⟨claim', n, -, -, -, rfl⟩ := castVote_tallies h
      refine ⟨claim, hs.of_same ?_ ?_ ?_⟩
      · exact Function.update_of_ne (Ne.symm hid) _ _
      · exact Function.update_of_ne (Ne.symm hid) _ _
      · change (s.ballots ++ ballotsOf claimId voter choice n.tallied).filter _ = _
        rw [List.filter_append, ballotsOf_filter, if_neg hid, List.append_nil]
        rfl

theorem counted_of_step (s : State) (l : Label) (s' : State) (_ : always s l) (hstep : s.Step l s')
    (hs : ∃ claim, s.Counted id voters claim) : ∃ claim, s'.Counted id voters claim := by
  obtain ⟨claim, hs⟩ := hs
  obtain ⟨auths, c, rfl, hexec⟩ | rfl | ⟨n, -, rfl⟩ := step_cases hstep
  · exact hs.exec hexec
  · exact ⟨claim, hs⟩
  · exact ⟨claim, hs.of_same rfl rfl rfl⟩

theorem length_eq_choices (bs : List Ballot) :
    bs.length = bs.countP (·.choice = .For) + bs.countP (·.choice = .Against) := by
  induction bs with
  | nil => rfl
  | cons b rest ih =>
    rw [List.countP_cons, List.countP_cons, List.length_cons, ih]
    cases hb : b.choice <;> simp <;> omega

theorem State.Counted.marked_perm (hs : s.Counted id voters claim) :
    (s.voted id).marked.Perm ((s.ballotsOn id).map (·.voter)) := by
  refine (List.perm_ext_iff_of_nodup (Voted.nodup_marked _) hs.once).mpr ?_
  intro a
  rw [Voted.mem_marked]
  exact hs.has a

/-- A ballot is tallied in a call of `cast_vote` that its caller has authorised, for the caller or
for an address with an unexpired delegation to the caller. -/
theorem ballots_entitled {c : Call} (h : s.exec auths c = .ok s') :
    ∃ bs, s'.ballots = s.ballots ++ bs ∧ ∀ b ∈ bs, auths b.caller = true ∧
      c = .castVote b.caller b.claimId b.choice ∧
      (b.voter = b.caller ∨ s.delegatesTo b.voter b.caller = true) := by
  by_cases hc : ∀ voter claimId choice, c ≠ .castVote voter claimId choice
  · obtain ⟨-, -, hlog⟩ := exec_of_delegation h hc
    exact ⟨[], by rw [hlog, List.append_nil], by simp⟩
  · push Not at hc
    obtain ⟨voter, claimId, choice, rfl⟩ := hc
    obtain ⟨claim, n, hauth, -, hn, rfl⟩ := castVote_tallies h
    refine ⟨ballotsOf claimId voter choice n.tallied, rfl, ?_⟩
    intro b hb
    obtain ⟨a, ha, rfl⟩ := List.mem_map.mp hb
    exact ⟨hauth, rfl, hn.entitled a ha⟩

theorem invoke_of_panic {c : Call} {e : Panic} (h : s.exec auths c = .error e) :
    s.invoke auths c = s := by
  rw [State.invoke, h]

theorem counted_of_reach (h : (machine (State.Opens id voters)).Reach always s) :
    ∃ claim, s.Counted id voters claim :=
  h.invariant (I := fun s => ∃ claim, s.Counted id voters claim) (fun _ => State.Opens.counted)
    counted_of_step

/-- **Ballots are counted once and for nobody else.**  From any state in which the claim `id` has
no votes, whatever is called: the tallies of the claim add up to the number of addresses marked
voted; each of these is in the snapshot and has exactly one ballot, and the tallies are those of
the ballots; a call tallies ballots only for its caller and for addresses with an unexpired
delegation to the caller; and a call that panics changes nothing. -/
theorem ballots_counted_of_reach (h : (machine (State.Opens id voters)).Reach always s) :
    (∃ claim, s.claim id = some claim ∧ claim.voterSnapshot = voters ∧
      claim.votesFor + claim.votesAgainst = (s.voted id).marked.length ∧
      (∀ a ∈ (s.voted id).marked, a ∈ voters ∧
        ((s.ballotsOn id).map (·.voter)).count a = 1) ∧
      (∀ b ∈ s.ballotsOn id, b.voter ∈ (s.voted id).marked) ∧
      claim.votesFor = (s.ballotsOn id).countP (·.choice = .For) ∧
      claim.votesAgainst = (s.ballotsOn id).countP (·.choice = .Against)) ∧
    (∀ auths c s', s.exec auths c = .ok s' → ∃ bs, s'.ballots = s.ballots ++ bs ∧
      ∀ b ∈ bs, auths b.caller = true ∧ c = .castVote b.caller b.claimId b.choice ∧
        (b.voter = b.caller ∨ s.delegatesTo b.voter b.caller = true)) ∧
    ∀ auths c e, s.exec auths c = .error e → s.invoke auths c = s := by
  refine ⟨?_, fun auths c s' => ballots_entitled, fun auths c e => invoke_of_panic⟩
  obtain ⟨claim, hs⟩ := counted_of_reach h
  have hperm := hs.marked_perm
  refine ⟨claim, hs.stored, hs.snapshot, ?_, ?_, ?_, hs.votesFor, hs.votesAgainst⟩
  · rw [hperm.length_eq, List.length_map, length_eq_choices, hs.votesFor, hs.votesAgainst]
  · intro a ha
    rw [hperm.mem_iff] at ha
    exact ⟨hs.listed a ha, List.count_eq_one_of_mem hs.once ha⟩
  · intro b hb
    rw [hperm.mem_iff]
    exact List.mem_map_of_mem hb

end Runs

/-- A deployment with the claim 7, on which the accounts 1, 2 and 3 may vote. -/
def deployedClaim : State :=
  { deployed with claim := fun id => if id = 7 then some ⟨7, [1, 2, 3], 0, 0⟩ else none }

/-- Account 1 delegates to 2, 2 votes for both, and 3 votes against. -/
theorem ballots_counted_delegated : ∃ s claim, (machine (State.Opens 7 [1, 2, 3])).Reach always s ∧
    s.claim 7 = some claim ∧ claim.votesFor = 2 ∧ claim.votesAgainst = 1 ∧
    (s.voted 7).marked.length = 3 := by
  have hreach : (machine (State.Opens 7 [1, 2, 3])).Reach always
      ([Call.delegateVote 1 2 500, .castVote 2 7 .For, .castVote 3 7 .Against].foldl
        (fun s c => s.invoke everybody c) deployedClaim) :=
    reach_foldl _ (.of_init ⟨⟨_, rfl, rfl, rfl, rfl⟩, rfl, rfl⟩)
  obtain ⟨⟨claim, hclaim, -, hsum, -, -, hfor, hagainst⟩, -⟩ := ballots_counted_of_reach hreach
  have hfor' : claim.votesFor = 2 := hfor.trans (by decide)
  have hagainst' : claim.votesAgainst = 1 := hagainst.trans (by decide)
  refine ⟨_, claim, hreach, hclaim, hfor', hagainst', ?_⟩
  rw [← hsum, hfor', hagainst']

end NiffyInsure.ClaimVoting
