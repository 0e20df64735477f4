import NiffyInsure.ClaimVoting.BallotCount

/-!
# Direct votes and delegated ballots

A delegator voting directly is to override its delegation for the claim.  `cast_vote` lets the
direct vote win only when it comes first: once the delegate's call has tallied the ballot of the
delegator, the delegator is marked as voted and its own call panics.

* `castVote_total`: a vote of an address in the snapshot that has no ballot yet is accepted.  The
  tallies do not overflow, because a snapshot is no longer than a `u32` says.
* `choicesOf_exec`: whose call decides the ballot of an address.
* `direct_vote_counts_iff`: a direct vote is accepted and stands at the end exactly when no ballot
  of the address was tallied before.
-/

namespace NiffyInsure.ClaimVoting

open Machine

/-- The choices on the ballots of `v` on the claim `id`, in the order in which they were tallied. -/
def State.choicesOf (s : State) (id : Nat) (v : Address) : List VoteChoice :=
  ((s.ballotsOn id).filter (·.voter = v)).map (·.choice)

/-- The choice that a call gives the ballot of `v` on the claim `id`: the caller is `v`, or `v` is
in the caller's list with an active delegation to the caller. -/
def State.voteFor (s : State) (id : Nat) (v : Address) : Call → Option VoteChoice
  | .castVote voter claimId choice =>
    if claimId = id ∧ (voter = v ∨ v ∈ s.delegators voter ∧ s.delegatesTo v voter = true) then
      some choice
    else none
  | _ => none

/-- The vote of `v` on the claim `id` is accepted, and from then on whatever is called the claim
counts exactly one ballot of `v`, with this choice. -/
def State.Heard (s : State) (auths : Address → Bool) (id : Nat) (voters : List Address)
    (v : Address) (choice : VoteChoice) : Prop :=
  ∃ s', s.castVote auths v id choice = .ok s' ∧
    ∀ t, (machine (State.Opens id voters)).Steps always s' t →
      t.choicesOf id v = [choice] ∧ ∃ claim, t.claim id = some claim ∧
        claim.votesFor = (t.ballotsOn id).countP (·.choice = .For) ∧
        claim.votesAgainst = (t.ballotsOn id).countP (·.choice = .Against)

/-! ## The loop over the delegators -/

section Loop

variable {s : State} {voter : Address} {choice : VoteChoice} {id : Nat} {voters : List Address}
  {claim : Claim} {n n' : Count} {a : Address}

theorem Count.Fits.room (hn : n.Fits s voter choice claim (s.voted id))
    (hs : s.Counted id voters claim) (hvoters : voters.length ≤ U32_MAX) (ha : a ∈ voters)
    (hunvoted : n.voted.has a = false) :
    n.claim.votesFor + n.claim.votesAgainst + 1 ≤ U32_MAX := by
  have hnew : a ∉ (s.ballotsOn id).map (·.voter) ++ n.tallied := by
    intro hmem
    have hhas : n.voted.has a = true := by
      rw [hn.has, hs.has]
      exact List.mem_append.mp hmem
    rw [hhas] at hunvoted
    cases hunvoted
  -- the addresses with a ballot and the one that gets the next are different, and in the snapshot
  have hnodup : (a :: ((s.ballotsOn id).map (·.voter) ++ n.tallied)).Nodup := by
    refine List.nodup_cons.mpr ⟨hnew, List.nodup_append.mpr ⟨hs.once, hn.nodup, ?_⟩⟩
    rintro b hb c hc rfl
    have hvoted := (hs.has b).mpr hb
    rw [hn.unvoted b hc] at hvoted
    cases hvoted
  have hsubset : (a :: ((s.ballotsOn id).map (·.voter) ++ n.tallied)) ⊆ voters := by
    intro b hb
    rcases List.mem_cons.mp hb with rfl | hb
    · exact ha
    rcases List.mem_append.mp hb with hb | hb
    · exact hs.listed b hb
    · exact hs.snapshot ▸ hn.listed b hb
  have hle := (List.subperm_of_subset hnodup hsubset).length_le
  have hcount := length_eq_choices (s.ballotsOn id)
  rw [List.length_cons, List.length_append, List.length_map, hcount, ← hs.votesFor,
    ← hs.votesAgainst] at hle
  have hfor := hn.votesFor
  have hagainst := hn.votesAgainst
  cases choice with
  | For =>
    simp only [if_true, reduceCtorEq, if_false] at hfor hagainst
    omega
  | Against =>
    simp only [if_true, reduceCtorEq, if_false] at hfor hagainst
    omega

theorem Count.Fits.exists_add (hn : n.Fits s voter choice claim (s.voted id))
    (hs : s.Counted id voters claim) (hvoters : voters.length ≤ U32_MAX) (ha : a ∈ voters)
    (hunvoted : n.voted.has a = false) : ∃ n', n.add a choice = .ok n' := by
  have hroom := hn.room hs hvoters ha hunvoted
  have htally : ∃ claim', n.claim.tally choice = .ok claim' := by
    cases choice with
    | For => exact ⟨_, if_pos (by omega)⟩
    | Against => exact ⟨_, if_pos (by omega)⟩
  obtain ⟨claim', htally⟩ := htally
  exact ⟨_, bind_eq_ok.mpr ⟨claim', htally, rfl⟩⟩

theorem castDelegated_total (hs : s.Counted id voters claim) (hvoters : voters.length ≤ U32_MAX)
    (delegators : List Address) : ∀ n : Count, n.Fits s voter choice claim (s.voted id) →
      ∃ n', s.castDelegated voter choice delegators n = .ok n' := by
  induction delegators with
  | nil =>
    intro n _
    exact ⟨n, rfl⟩
  | cons delegator rest ih =>
    intro n hn
    rw [State.castDelegated]
    split
    · exact ih n hn
    rename_i hlisted
    split
    · exact ih n hn
    rename_i hunvoted
    split
    · exact ih n hn
    rename_i hactive
    rw [not_not] at hlisted
    rw [Bool.not_eq_true] at hunvoted
    rw [Bool.not_eq_false] at hactive
    have hmem : delegator ∈ voters := by
      rw [← hs.snapshot, ← hn.snapshot]
      exact hlisted
    obtain ⟨n₁, hadd⟩ := hn.exists_add hs hvoters hmem hunvoted
    obtain ⟨n', hloop⟩ := ih n₁ (hn.add hadd hlisted hunvoted (.inr hactive))
    exact ⟨n', bind_eq_ok.mpr ⟨n₁, hadd, hloop⟩⟩

theorem has_add (h : n.add a choice = .ok n') (b : Address) :
    n'.voted.has b = true ↔ b = a ∨ n.voted.has b = true := by
  obtain ⟨claim', -, h⟩ := bind_eq_ok.mp h
  cases h
  exact Voted.has_insert

/-- **The loop leaves nobody out**: who has voted stays voted, and so are the listed delegators of
the snapshot with an active delegation. -/
theorem castDelegated_covers (delegators : List Address) : ∀ n n' : Count,
    n.Fits s voter choice claim (s.voted id) →
    s.castDelegated voter choice delegators n = .ok n' →
      (n.voted.has a = true ∨
        (a ∈ delegators ∧ a ∈ claim.voterSnapshot ∧ s.delegatesTo a voter = true)) →
      n'.voted.has a = true := by
  induction delegators with
  | nil =>
    rintro n n' - h (hvoted | ⟨hmem, -⟩)
    · cases h
      exact hvoted
    · cases hmem
  | cons delegator rest ih =>
    intro n n' hn h ha
    rw [State.castDelegated] at h
    split at h
    · rename_i hlisted
      refine ih n n' hn h ?_
      rcases ha with hvoted | ⟨hmem, hsnap, hactive⟩
      · exact .inl hvoted
      rcases List.mem_cons.mp hmem with rfl | hmem
      · exact absurd (hn.snapshot ▸ hsnap) hlisted
      · exact .inr ⟨hmem, hsnap, hactive⟩
    rename_i hlisted
    split at h
    · rename_i hhas
      refine ih n n' hn h ?_
      rcases ha with hvoted | ⟨hmem, hsnap, hactive⟩
      · exact .inl hvoted
      rcases List.mem_cons.mp hmem with rfl | hmem
      · exact .inl hhas
      · exact .inr ⟨hmem, hsnap, hactive⟩
    rename_i hunvoted
    split at h
    · rename_i hinactive
      refine ih n n' hn h ?_
      rcases ha with hvoted | ⟨hmem, hsnap, hactive⟩
      · exact .inl hvoted
      rcases List.mem_cons.mp hmem with rfl | hmem
      · rw [hinactive] at hactive
        cases hactive
      · exact .inr ⟨hmem, hsnap, hactive⟩
    rename_i hactive
    obtain ⟨n₁, hadd, h⟩ := bind_eq_ok.mp h
    rw [not_not] at hlisted
    rw [Bool.not_eq_true] at hunvoted
    rw [Bool.not_eq_false] at hactive
    refine ih n₁ n' (hn.add hadd hlisted hunvoted (.inr hactive)) h ?_
    rw [has_add hadd]
    rcases ha with hvoted | ⟨hmem, hsnap, hactive⟩
    · exact .inl (.inr hvoted)
    rcases List.mem_cons.mp hmem with rfl | hmem
    · exact .inl (.inl rfl)
    · exact .inr ⟨hmem, hsnap, hactive⟩

end Loop

/-! ## One call -/

section Calls

variable {s s' : State} {auths : Address → Bool} {id : Nat} {voters : List Address}
  {claim : Claim} {v voter : Address} {choice : VoteChoice}

/-- **A first vote is accepted.** -/
theorem castVote_total (hs : s.Counted id voters claim) (hvoters : voters.length ≤ U32_MAX)
    (hv : v ∈ voters) (hauth : auths v = true) (hunvoted : (s.voted id).has v = false)
    (choice : VoteChoice) : ∃ s', s.castVote auths v id choice = .ok s' := by
  have hlisted : v ∈ claim.voterSnapshot := hs.snapshot ▸ hv
  have hstart : Count.Fits ⟨claim, s.voted id, []⟩ s v choice claim (s.voted id) := .start
  obtain ⟨n₁, hadd⟩ := hstart.exists_add hs hvoters hv hunvoted
  obtain ⟨n₂, hloop⟩ := castDelegated_total hs hvoters (s.delegators v) n₁
    (hstart.add hadd hlisted hunvoted (.inl rfl))
  refine ⟨{ s with
    voted := Function.update s.voted id n₂.voted
    claim := Function.update s.claim id (some n₂.claim)
    ballots := s.ballots ++ n₂.tallied.map fun a => ⟨id, a, v, choice⟩ }, ?_⟩
  rw [State.castVote, if_neg (by simp [hauth]), hs.stored]
  dsimp only
  rw [if_neg (not_not_intro hlisted), if_neg (by simp [hunvoted])]
  exact bind_eq_ok.mpr ⟨n₁, hadd, bind_eq_ok.mpr ⟨n₂, hloop, rfl⟩⟩

theorem mem_tallied_iff (hs : s.Counted id voters claim)
    (h : s.castVote auths voter id choice = .ok s') :
    ∃ tallied : List Address, tallied.Nodup ∧
      s'.ballots = s.ballots ++ ballotsOf id voter choice tallied ∧
      ∀ a ∈ voters, a ∈ tallied ↔ (s.voted id).has a = false ∧
        (voter = a ∨ a ∈ s.delegators voter ∧ s.delegatesTo a voter = true) := by
  obtain ⟨claim', n₁, n₂, -, hclaim, hlisted, hunvoted, hadd, hloop, rfl⟩ := castVote_eq_ok h
  rw [hs.stored] at hclaim
  cases hclaim
  have hfirst : n₁.Fits s voter choice claim (s.voted id) :=
    Count.Fits.start.add hadd hlisted hunvoted (.inl rfl)
  have hn := castDelegated_fits _ hfirst hloop
  refine ⟨n₂.tallied, hn.nodup, rfl, fun a ha => ?_⟩
  constructor
  · intro hmem
    refine ⟨hn.unvoted a hmem, ?_⟩
    rcases hn.entitled a hmem with rfl | hactive
    · exact .inl rfl
    by_cases hself : voter = a
    · exact .inl hself
    -- a ballot that is not the caller's own was tallied at an entry of the list
    have hlist : ∀ (delegators : List Address) (n n' : Count),
        s.castDelegated voter choice delegators n = .ok n' → a ∈ n'.tallied →
          a ∈ n.tallied ∨ a ∈ delegators := by
      intro delegators
      induction delegators with
      | nil =>
        intro n n' h ha
        cases h
        exact .inl ha
      | cons delegator rest ih =>
        intro n n' h ha
        rw [State.castDelegated] at h
        have hskip : s.castDelegated voter choice rest n = .ok n' →
            a ∈ n.tallied ∨ a ∈ delegator :: rest := fun h =>
          (ih n n' h ha).imp_right (List.mem_cons_of_mem _)
        split at h
        · exact hskip h
        split at h
        · exact hskip h
        split at h
        · exact hskip h
        obtain ⟨n₁, hadd, h⟩ := bind_eq_ok.mp h
        obtain ⟨claim', -, hadd⟩ := bind_eq_ok.mp hadd
        cases hadd
        rcases ih _ n' h ha with hmem | hmem
        · rcases List.mem_append.mp hmem with hmem | hmem
          · exact .inl hmem
          · exact .inr (List.mem_cons.mpr (.inl (List.mem_singleton.mp hmem)))
        · exact .inr (List.mem_cons_of_mem _ hmem)
    obtain ⟨claim', -, hadd⟩ := bind_eq_ok.mp hadd
    cases hadd
    rcases hlist _ _ n₂ hloop hmem with hmem | hmem
    · exact absurd (List.mem_singleton.mp hmem).symm hself
    · exact .inr ⟨hmem, hactive⟩
  · rintro ⟨hnew, hent⟩
    have hhas : n₂.voted.has a = true := by
      refine castDelegated_covers _ _ _ hfirst hloop ?_
      rcases hent with rfl | ⟨hmem, hactive⟩
      · exact .inl ((has_add hadd voter).mpr (.inl rfl))
      · exact .inr ⟨hmem, hs.snapshot ▸ ha, hactive⟩
    rcases (hn.has a).mp hhas with hvoted | hmem
    · rw [hnew] at hvoted
      cases hvoted
    · exact hmem

theorem State.Counted.choicesOf_eq_nil_iff (hs : s.Counted id voters claim) :
    s.choicesOf id v = [] ↔ (s.voted id).has v = false := by
  rw [State.choicesOf, List.map_eq_nil_iff, List.filter_eq_nil_iff, ← Bool.not_eq_true, hs.has,
    List.mem_map]
  simp only [decide_eq_true_eq, not_exists, not_and]

theorem choices_ballotsOf (tallied : List Address) (hnodup : tallied.Nodup) :
    ((ballotsOf id voter choice tallied).filter (·.voter = v)).map (·.choice) =
      if v ∈ tallied then [choice] else [] := by
  rw [ballotsOf, List.filter_map, List.map_map]
  change (tallied.filter fun a => a = v).map (fun _ => choice) = _
  by_cases hmem : v ∈ tallied
  · rw [if_pos hmem, List.filter_eq, List.count_eq_one_of_mem hnodup hmem]
    rfl
  · rw [if_neg hmem, List.filter_eq, List.count_eq_zero_of_not_mem hmem]
    rfl

/-- **Whose call decides.**  The first call that gives the ballot of an address of the snapshot a
choice tallies it, and nothing changes it after that. -/
theorem choicesOf_exec {c : Call} (hs : s.Counted id voters claim) (hv : v ∈ voters)
    (h : s.exec auths c = .ok s') : s'.choicesOf id v =
      if s.choicesOf id v = [] then (s.voteFor id v c).toList else s.choicesOf id v := by
  have hquiet : s'.ballotsOn id = s.ballotsOn id → s.voteFor id v c = none → s'.choicesOf id v =
      if s.choicesOf id v = [] then (s.voteFor id v c).toList else s.choicesOf id v := by
    intro hlog hnone
    rw [State.choicesOf, hlog, hnone]
    split
    · assumption
    · rfl
  cases c with
  | delegateVote | revokeVoteDelegation =>
    refine hquiet ?_ rfl
    rw [State.ballotsOn, (exec_of_delegation h (by simp)).2.2]
    rfl
  | castVote voter claimId choice =>
    by_cases hid : claimId = id
    · subst hid
      obtain ⟨tallied, hnodup, hlog, hmem⟩ := mem_tallied_iff hs h
      have hon : s'.ballotsOn claimId = s.ballotsOn claimId ++
          ballotsOf claimId voter choice tallied := by
        rw [State.ballotsOn, hlog, List.filter_append, ballotsOf_filter, if_pos rfl]
        rfl
      have hchoices : s'.choicesOf claimId v =
          s.choicesOf claimId v ++ if v ∈ tallied then [choice] else [] := by
        rw [State.choicesOf, hon, List.filter_append, List.map_append, choices_ballotsOf _ hnodup]
        rfl
      rw [hchoices]
      by_cases hnone : s.choicesOf claimId v = []
      · rw [if_pos hnone, hnone, List.nil_append]
        have hunvoted := hs.choicesOf_eq_nil_iff.mp hnone
        by_cases hent : voter = v ∨ v ∈ s.delegators voter ∧ s.delegatesTo v voter = true
        · have hfor : s.voteFor claimId v (.castVote voter claimId choice) = some choice :=
            if_pos ⟨rfl, hent⟩
          rw [if_pos ((hmem v hv).mpr ⟨hunvoted, hent⟩), hfor]
          rfl
        · have hfor : s.voteFor claimId v (.castVote voter claimId choice) = none :=
            if_neg fun hboth => hent hboth.2
          rw [if_neg fun hin => hent ((hmem v hv).mp hin).2, hfor]
          rfl
      · have hvoted : (s.voted claimId).has v ≠ false := fun hno =>
          hnone (hs.choicesOf_eq_nil_iff.mpr hno)
        rw [if_neg hnone, if_neg fun hin => hvoted ((hmem v hv).mp hin).1, List.append_nil]
    · refine hquiet ?_ (if_neg fun hboth => hid hboth.1)
      obtain ⟨claim', n, -, -, -, rfl⟩ := castVote_tallies h
      change (s.ballots ++ ballotsOf claimId voter choice n.tallied).filter _ = _
      rw [List.filter_append, ballotsOf_filter, if_neg hid, List.append_nil]
      rfl

end Calls

/-! ## Runs -/

section Runs

variable {s t : State} {auths : Address → Bool} {id : Nat} {voters : List Address} {v : Address}
  {choice : VoteChoice}

theorem choicesOf_of_steps (hv : v ∈ voters) (hs : ∃ claim, s.Counted id voters claim)
    (hone : s.choicesOf id v = [choice])
    (hrun : (machine (State.Opens id voters)).Steps always s t) :
    (∃ claim, t.Counted id voters claim) ∧ t.choicesOf id v = [choice] := by
  refine hrun.invariant (I := fun t => (∃ claim, t.Counted id voters claim) ∧
    t.choicesOf id v = [choice]) ?_ ⟨hs, hone⟩
  rintro t l t' hl hstep ⟨ht, hone⟩
  refine ⟨counted_of_step t l t' hl hstep ht, ?_⟩
  obtain ⟨claim, ht⟩ := ht
  obtain ⟨auths', c, rfl, hexec⟩ | rfl | ⟨n, -, rfl⟩ := step_cases hstep
  · rw [choicesOf_exec ht hv hexec, hone]
    rfl
  · exact hone
  · exact hone

/-- **A direct vote counts exactly when it comes first.**  From any state in which the claim `id`
has no votes and after any calls: a signed vote of an address of the snapshot is accepted, and
stands for exactly one ballot with its choice at the end of every continuation, if and only if no
ballot of the address was tallied before.  The first call that gives its ballot a choice, its own
or that of a delegate that lists it under an active delegation, tallies it for good. -/
theorem direct_vote_counts_iff (hvoters : voters.length ≤ U32_MAX)
    (h : (machine (State.Opens id voters)).Reach always s) (hv : v ∈ voters)
    (hauth : auths v = true) (choice : VoteChoice) :
    (s.Heard auths id voters v choice ↔ s.choicesOf id v = []) ∧
      ∀ auths' c s', s.exec auths' c = .ok s' → s'.choicesOf id v =
        if s.choicesOf id v = [] then (s.voteFor id v c).toList else s.choicesOf id v := by
  obtain ⟨claim, hs⟩ := counted_of_reach h
  refine ⟨⟨?_, fun hnone => ?_⟩, fun auths' c s' hexec => choicesOf_exec hs hv hexec⟩
  · rintro ⟨s', hcast, -⟩
    obtain ⟨-, -, -, -, -, -, hunvoted, -⟩ := castVote_eq_ok hcast
    exact hs.choicesOf_eq_nil_iff.mpr hunvoted
  · obtain ⟨s', hcast⟩ :=
      castVote_total hs hvoters hv hauth (hs.choicesOf_eq_nil_iff.mp hnone) choice
    have hexec : s.exec auths (.castVote v id choice) = .ok s' := hcast
    have hone : s'.choicesOf id v = [choice] := by
      have hfor : s.voteFor id v (.castVote v id choice) = some choice := if_pos ⟨rfl, .inl rfl⟩
      rw [choicesOf_exec hs hv hexec, if_pos hnone, hfor]
      rfl
    refine ⟨s', hcast, fun t hrun => ?_⟩
    obtain ⟨⟨claim', ht⟩, hstays⟩ := choicesOf_of_steps hv (hs.exec hexec) hone hrun
    exact ⟨hstays, claim', ht.stored, ht.votesFor, ht.votesAgainst⟩

end Runs

/-- Account 1 has delegated to 2 and votes before it. -/
theorem direct_vote_counts_first : ∃ s, (machine (State.Opens 7 [1, 2, 3])).Reach always s ∧
    s.delegatesTo 1 2 = true ∧ s.Heard everybody 7 [1, 2, 3] 1 .Against := by
  have hreach : (machine (State.Opens 7 [1, 2, 3])).Reach always
      ([Call.delegateVote 1 2 500].foldl (fun s c => s.invoke everybody c) deployedClaim) :=
    reach_foldl _ (.of_init ⟨⟨_, rfl, rfl, rfl, rfl⟩, rfl, rfl⟩)
  have hcounts := direct_vote_counts_iff (v := 1) (by decide) hreach (by decide)
    (show everybody 1 = true from rfl) .Against
  exact ⟨_, hreach, by decide, hcounts.1.mpr (by decide)⟩

/-- **A direct vote after the delegate's is lost.**  Account 1 delegates to 2, which votes for; the
vote of account 1 against is refused, and its ballot counts for.  In the other order of the two
votes it counts against. -/
theorem direct_vote_lost :
    (∃ s, (machine (State.Opens 7 [1, 2, 3])).Reach always s ∧
      s.castVote everybody 1 7 .Against = .error .alreadyVoted ∧
      (s.invoke everybody (.castVote 1 7 .Against)).choicesOf 7 1 = [.For] ∧
      ¬ s.Heard everybody 7 [1, 2, 3] 1 .Against) ∧
    ∃ s, (machine (State.Opens 7 [1, 2, 3])).Reach always s ∧
      (s.invoke everybody (.castVote 2 7 .For)).choicesOf 7 1 = [.Against] := by
  have hreach : ∀ calls : List Call, (machine (State.Opens 7 [1, 2, 3])).Reach always
      (calls.foldl (fun s c => s.invoke everybody c) deployedClaim) := fun calls =>
    reach_foldl calls (.of_init ⟨⟨_, rfl, rfl, rfl, rfl⟩, rfl, rfl⟩)
  refine ⟨⟨_, hreach [.delegateVote 1 2 500, .castVote 2 7 .For], rfl, by decide, ?_⟩,
    _, hreach [.delegateVote 1 2 500, .castVote 1 7 .Against], by decide⟩
  rintro ⟨s', hcast, -⟩
  have hrefused : ([Call.delegateVote 1 2 500, .castVote 2 7 .For].foldl
      (fun s c => s.invoke everybody c) deployedClaim).castVote everybody 1 7 .Against =
        .error .alreadyVoted := rfl
  rw [hrefused] at hcast
  cases hcast

end NiffyInsure.ClaimVoting
