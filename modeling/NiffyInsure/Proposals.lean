import NiffyInsure.Registry
import NiffyInsure.Trace

/-!
# Votes on proposals

What the votes on governance proposals come to.  Every resolution of a proposal publishes an
event, so `resolvedCount` counts them, and `appliedCount` counts the ones that wrote the
parameter.

* `voteProposal_cases`, `closeVote_cases`: what a vote can do.
* `proposal_resolved_once`: a proposal is resolved at most once, while no vote on an applied
  proposal finds a majority on either side; `proposal_resolved_twice` is a run in which one does.
* `proposal_applied_by_majority`: an applied proposal has the approval of a majority of the
  registry, while approving votes come from the registry and their voters stay in it;
  `proposal_applied_by_minority` is a run in which a policy is passed on after the vote.
-/

namespace NiffyInsure

open Machine

/-- The event resolves the proposal. -/
def Event.resolves (id : Nat) : Event → Bool
  | .proposalResolved i .. => i == id
  | _ => false

/-- The event says that the proposal was applied. -/
def Event.applies (id : Nat) : Event → Bool
  | .proposalResolved i _ _ applied _ => i == id && applied
  | _ => false

/-- How often the proposal was resolved. -/
def State.resolvedCount (s : State) (id : Nat) : Nat := s.resolutions.countP (Event.resolves id)

/-- How often `apply_parameter` was run for the proposal. -/
def State.appliedCount (s : State) (id : Nat) : Nat := s.resolutions.countP (Event.applies id)

/-! ## What a vote does -/

section Votes

variable {env : Env} {s s' : State}

theorem resolvedCount_of_same (h : s'.resolutions = s.resolutions) (id : Nat) :
    s'.resolvedCount id = s.resolvedCount id := by
  rw [State.resolvedCount, h, State.resolvedCount]

theorem resolvedCount_of_append {i value ledger : Nat} {key : Str} {applied : Bool}
    (h : s'.resolutions = s.resolutions ++ [.proposalResolved i key value applied ledger])
    (id : Nat) : s'.resolvedCount id = s.resolvedCount id + if i = id then 1 else 0 := by
  rw [State.resolvedCount, h, List.countP_append, State.resolvedCount]
  simp [List.countP_cons, Event.resolves]

/-- **What closing a vote does**: the proposal is applied, removed or stored. -/
theorem closeVote_cases (s : State) (p : Proposal) :
    (s.quorumRequired ≤ p.approveVotes ∧
      (s.closeVote p).getProposal p.proposalId = some { p with applied := true } ∧
      (s.closeVote p).resolutions = s.resolutions ++
        [.proposalResolved p.proposalId p.paramKey p.proposedValue true s.sequence]) ∨
    (s.quorumRequired ≤ p.rejectVotes ∧
      (s.closeVote p).getProposal p.proposalId = none ∧
      (s.closeVote p).resolutions = s.resolutions ++
        [.proposalResolved p.proposalId p.paramKey p.proposedValue false s.sequence]) ∨
    (s.closeVote p).getProposal p.proposalId = some p ∧
      (s.closeVote p).resolutions = s.resolutions ∧
      (s.closeVote p).get .quorumBps = s.get .quorumBps ∧
      (s.closeVote p).get .voteDurLedgers = s.get .voteDurLedgers := by
  have happly : (s.applyParameter p).resolutions = s.resolutions := by
    unfold State.applyParameter
    split
    · rfl
    · split <;> rfl
  unfold State.closeVote
  dsimp only
  split
  · rename_i hq
    refine Or.inl ⟨hq, ?_, ?_⟩
    · simp [State.getProposal, State.setProposal]
    · rw [State.resolutions_emit, State.setProposal, State.resolutions_set, happly]
      rfl
  · split
    · rename_i hq
      refine Or.inr (Or.inl ⟨hq, ?_, ?_⟩)
      · simp [State.getProposal]
      · rw [State.resolutions_remove, State.resolutions_emit]
        rfl
    · refine Or.inr (Or.inr ⟨?_, rfl, ?_, ?_⟩)
      · simp [State.getProposal, State.setProposal]
      · simp [State.setProposal]
      · simp [State.setProposal]

theorem get_closeVote {p : Proposal} {k : DataKey} (hk : k ≠ .proposal p.proposalId)
    (hq : k ≠ .quorumBps) (hd : k ≠ .voteDurLedgers) : (s.closeVote p).get k = s.get k := by
  have happly : (s.applyParameter p).get k = s.get k := by
    unfold State.applyParameter
    split
    · simp [hq]
    · split <;> simp [hd]
  unfold State.closeVote
  dsimp only
  split
  · rw [State.get_emit, State.setProposal, State.get_set_of_ne _ _ hk, happly]
  · split
    · rw [State.get_remove_of_ne _ hk, State.get_emit]
    · rw [State.setProposal, State.get_set_of_ne _ _ hk]

/-- **What a vote finds and does**: it is recorded, and then the vote is closed with it. -/
theorem voteProposal_cases {voter : Address} {id : Nat} {approve : Bool}
    (h : voteProposal env s voter id approve = .ok s') :
    ∃ (p : Proposal) (s₁ : State), s.getProposal id = some p ∧
      s.get (.proposalVote id voter) = none ∧
      (∀ k, k ≠ .proposalVote id voter → s₁.get k = s.get k) ∧
      s₁.get (.proposalVote id voter) = some approve ∧ s₁.resolutions = s.resolutions ∧
      s' = s₁.closeVote (p.count approve) := by
  simp only [voteProposal, bind_eq_ok, okOr_eq_ok, ensure_eq_ok, pure_eq_ok] at h
  obtain ⟨-, -, p, hp, -, -, -, hnew, rfl⟩ := h
  have hnone : s.get (.proposalVote id voter) = none := by
    rw [State.hasProposalVote, Option.isSome_eq_false_iff, Option.isNone_iff_eq_none] at hnew
    exact hnew
  refine ⟨p, _, hp, hnone, fun k hk => ?_, ?_, ?_, rfl⟩
  · rw [State.get_emit, State.get_set_of_ne _ _ hk]
  · rw [State.get_emit, State.get_set_self]
  · rw [State.resolutions_emit_other _ rfl, State.resolutions_set]

@[simp] theorem count_proposalId (p : Proposal) (approve : Bool) :
    (p.count approve).proposalId = p.proposalId := by
  unfold Proposal.count
  split <;> rfl

@[simp] theorem count_applied (p : Proposal) (approve : Bool) :
    (p.count approve).applied = p.applied := by
  unfold Proposal.count
  split <;> rfl

theorem quorumRequired_of_same (h : SameKind .registry s s') :
    s'.quorumRequired = s.quorumRequired := by
  rw [State.quorumRequired, getVoters_of_same h, State.quorumRequired]

theorem createProposal_cases {creator : Address} {key : Str} {value id : Nat}
    (h : createProposal env s creator key value = .ok (id, s')) :
    ∃ p : Proposal, id = saturatingAdd64 s.getProposalCounter 1 ∧ p.proposalId = id ∧
      p.approveVotes = 0 ∧ p.applied = false ∧ s'.getProposal id = some p ∧
      s'.getProposalCounter = id ∧ s'.resolutions = s.resolutions ∧
      (∀ k, k ≠ .proposal id → k ≠ .proposalCounter → k ≠ .lastProposalLedger creator →
        s'.get k = s.get k) := by
  simp only [createProposal, bind_eq_ok, pure_eq_ok, Prod.mk.injEq] at h
  obtain ⟨-, -, -, -, -, -, deadline, -, rfl, rfl⟩ := h
  have hid : (s.set (.lastProposalLedger creator) s.sequence).nextProposalId.1 =
      saturatingAdd64 s.getProposalCounter 1 := by
    simp [State.nextProposalId, State.getProposalCounter]
  refine ⟨⟨_, creator, key, value, deadline, 0, 0, false⟩, hid, rfl, rfl, rfl, ?_, ?_, ?_,
    fun k hk hc hl => ?_⟩
  · simp [State.getProposal, State.setProposal]
  · simp [State.getProposalCounter, State.setProposal, State.nextProposalId]
  · rw [State.resolutions_emit_other _ rfl]
    rfl
  · rw [State.get_emit, State.setProposal, State.get_set_of_ne _ _ hk, State.nextProposalId,
      State.get_set_of_ne _ _ hc, State.get_set_of_ne _ _ hl]

theorem finalizeGovernanceProposal_cases {id : Nat}
    (h : finalizeGovernanceProposal s id = .ok s') :
    s'.resolutions = s.resolutions ∧ s'.getProposal id = none ∧
      ∀ k, k ≠ .proposal id → s'.get k = s.get k := by
  simp only [finalizeGovernanceProposal, bind_eq_ok, pure_eq_ok] at h
  obtain ⟨p, -, -, -, -, -, rfl⟩ := h
  refine ⟨State.resolutions_emit_other _ rfl, ?_, fun k hk => ?_⟩
  · simp [State.getProposal]
  · rw [State.get_emit, State.get_remove_of_ne _ hk]

theorem sameGovernance_of_exec {c : Call} (h : c.exec env s = .ok s')
    (hc : ∀ g, c ≠ .governance g) :
    SameKind .governance s s' ∧ s'.resolutions = s.resolutions := by
  have hf := frame_exec h
  cases c with
  | claim c => exact ⟨hf.sameKind (c.untouched rfl), hf.resolutions (c.untouched rfl)⟩
  | policy c => exact ⟨hf.sameKind (c.untouched rfl), hf.resolutions (c.untouched rfl)⟩
  | treasury c => exact ⟨hf.sameKind (c.untouched rfl), hf.resolutions (c.untouched rfl)⟩
  | setting c => exact ⟨hf.sameKind rfl, hf.resolutions rfl⟩
  | governance g => exact absurd rfl (hc g)

end Votes

/-! ## A proposal is resolved once -/

/-- A vote on a proposal that was applied finds no majority on either side, and ids are not
used up. -/
def ClosesOnce (s : State) : Label → Prop
  | .call _ (.governance (.voteProposal _ id approve)) => ∀ p, s.getProposal id = some p →
      p.applied = true → (p.count approve).approveVotes < s.quorumRequired ∧
        (p.count approve).rejectVotes < s.quorumRequired
  | .call _ (.governance (.createProposal ..)) => s.getProposalCounter < U64_MAX
  | _ => True

/-- The resolutions since the counts were `before`: none of an id that is not given out or of a
stored proposal that was not applied, and one at most of any other. -/
structure State.ResolvedOnce (before : Nat → Nat) (s : State) : Prop where
  keyed : ∀ id p, s.getProposal id = some p → p.proposalId = id ∧ id ≤ s.getProposalCounter
  once : ∀ id, s.resolvedCount id ≤ before id + 1
  opened : ∀ id p, s.getProposal id = some p → p.applied = false → s.resolvedCount id = before id
  unused : ∀ id, s.getProposalCounter < id → s.resolvedCount id = before id

section Once

variable {env : Env} {s s' : State} {before : Nat → Nat}

/-- No proposal is new, and a resolution is of one that was not applied and is not open after
it. -/
theorem resolvedOnce_of_moves (hcount : s'.getProposalCounter = s.getProposalCounter)
    (h : ∀ i, (s'.resolvedCount i = s.resolvedCount i ∧ ∀ q, s'.getProposal i = some q →
        q.proposalId = i ∧ ∃ p, s.getProposal i = some p ∧ p.applied = q.applied) ∨
      ∃ p, s.getProposal i = some p ∧ p.applied = false ∧
        s'.resolvedCount i = s.resolvedCount i + 1 ∧
        ∀ q, s'.getProposal i = some q → q.proposalId = i ∧ q.applied = true)
    (hs : s.ResolvedOnce before) : s'.ResolvedOnce before := by
  refine ⟨fun i q hq => ?_, fun i => ?_, fun i q hq hopen => ?_, fun i hi => ?_⟩
  · rw [hcount]
    rcases h i with ⟨-, hprop⟩ | ⟨p, hp, -, -, hprop⟩
    · obtain ⟨hid, p, hp, -⟩ := hprop q hq
      exact ⟨hid, (hs.keyed i p hp).2⟩
    · exact ⟨(hprop q hq).1, (hs.keyed i p hp).2⟩
  · rcases h i with ⟨hsame, -⟩ | ⟨p, hp, hopen, hmore, -⟩
    · rw [hsame]
      exact hs.once i
    · rw [hmore, hs.opened i p hp hopen]
  · rcases h i with ⟨hsame, hprop⟩ | ⟨p, -, -, -, hprop⟩
    · obtain ⟨-, p, hp, happlied⟩ := hprop q hq
      rw [hsame]
      exact hs.opened i p hp (happlied.trans hopen)
    · rw [(hprop q hq).2] at hopen
      cases hopen
  · rw [hcount] at hi
    rcases h i with ⟨hsame, -⟩ | ⟨p, hp, -, -, -⟩
    · rw [hsame]
      exact hs.unused i hi
    · have hle := (hs.keyed i p hp).2
      omega

theorem resolvedOnce_of_same (h : SameKind .governance s s')
    (hres : s'.resolutions = s.resolutions) (hs : s.ResolvedOnce before) :
    s'.ResolvedOnce before := by
  refine resolvedOnce_of_moves ?_ (fun i => Or.inl ⟨resolvedCount_of_same hres i, ?_⟩) hs
  · simp only [State.getProposalCounter, h .proposalCounter rfl]
  · intro q hq
    rw [State.getProposal, h (.proposal i) rfl] at hq
    exact ⟨(hs.keyed i q hq).1, q, hq, rfl⟩

theorem resolvedOnce_of_vote {voter : Address} {id : Nat} {approve : Bool}
    (hok : ClosesOnce s (.call env (.governance (.voteProposal voter id approve))))
    (h : voteProposal env s voter id approve = .ok s') (hs : s.ResolvedOnce before) :
    s'.ResolvedOnce before := by
  obtain ⟨p, s₁, hp, -, hkeys, -, hres, rfl⟩ := voteProposal_cases h
  obtain ⟨rfl, -⟩ := hs.keyed id p hp
  have hq : s₁.quorumRequired = s.quorumRequired :=
    quorumRequired_of_same fun k hk => hkeys k (by rintro rfl; cases hk)
  have hopen : s₁.quorumRequired ≤ (p.count approve).approveVotes ∨
      s₁.quorumRequired ≤ (p.count approve).rejectVotes → p.applied = false := by
    intro hquorum
    by_contra happlied
    obtain ⟨ha, hr⟩ := hok p hp (by simpa using happlied)
    rw [hq] at hquorum
    omega
  have hcases := closeVote_cases s₁ (p.count approve)
  rw [count_proposalId, hres] at hcases
  refine resolvedOnce_of_moves ?_ (fun i => ?_) hs
  · simp only [State.getProposalCounter]
    rw [get_closeVote (by simp) (by simp) (by simp), hkeys _ (by simp)]
  · by_cases hi : i = p.proposalId
    · subst hi
      rcases hcases with ⟨hquorum, hget, hlog⟩ | ⟨hquorum, hget, hlog⟩ | ⟨hget, hlog, -⟩
      · refine Or.inr ⟨p, hp, hopen (Or.inl hquorum), ?_, fun q hq' => ?_⟩
        · rw [resolvedCount_of_append hlog, if_pos rfl]
        · rw [hget, Option.some.injEq] at hq'
          rw [← hq']
          exact ⟨rfl, rfl⟩
      · refine Or.inr ⟨p, hp, hopen (Or.inr hquorum), ?_, fun q hq' => ?_⟩
        · rw [resolvedCount_of_append hlog, if_pos rfl]
        · rw [hget] at hq'
          cases hq'
      · refine Or.inl ⟨resolvedCount_of_same hlog _, fun q hq' => ?_⟩
        rw [hget, Option.some.injEq] at hq'
        rw [← hq']
        exact ⟨count_proposalId p approve, p, hp, (count_applied p approve).symm⟩
    · refine Or.inl ⟨?_, fun q hq' => ?_⟩
      · rcases hcases with ⟨-, -, hlog⟩ | ⟨-, -, hlog⟩ | ⟨-, hlog, -⟩
        · rw [resolvedCount_of_append hlog, if_neg (Ne.symm hi), Nat.add_zero]
        · rw [resolvedCount_of_append hlog, if_neg (Ne.symm hi), Nat.add_zero]
        · exact resolvedCount_of_same hlog i
      · rw [State.getProposal, get_closeVote (by simpa using hi) (by simp) (by simp),
          hkeys _ (by simp)] at hq'
        exact ⟨(hs.keyed i q hq').1, q, hq', rfl⟩

theorem resolvedOnce_of_create {creator : Address} {key : Str} {value id : Nat}
    (hroom : s.getProposalCounter < U64_MAX)
    (h : createProposal env s creator key value = .ok (id, s')) (hs : s.ResolvedOnce before) :
    s'.ResolvedOnce before := by
  obtain ⟨p, hid, hpid, -, -, hget, hcount, hres, hkeys⟩ := createProposal_cases h
  have hnext : id = s.getProposalCounter + 1 := by
    rw [hid, saturatingAdd64]
    omega
  have hother : ∀ i, i ≠ id → s'.getProposal i = s.getProposal i := by
    intro i hi
    exact hkeys _ (by simpa using hi) (by simp) (by simp)
  refine ⟨fun i q hq => ?_, fun i => ?_, fun i q hq hopen => ?_, fun i hi => ?_⟩
  · rw [hcount]
    by_cases hi : i = id
    · subst hi
      rw [hget, Option.some.injEq] at hq
      exact ⟨by rw [← hq, hpid], le_refl _⟩
    · rw [hother i hi] at hq
      obtain ⟨hkey, hle⟩ := hs.keyed i q hq
      exact ⟨hkey, by omega⟩
  · rw [resolvedCount_of_same hres]
    exact hs.once i
  · rw [resolvedCount_of_same hres]
    by_cases hi : i = id
    · exact hs.unused i (by omega)
    · rw [hother i hi] at hq
      exact hs.opened i q hq hopen
  · rw [resolvedCount_of_same hres]
    exact hs.unused i (by omega)

theorem resolvedOnce_of_step {host : Host} {l : Label} (hok : ClosesOnce s l)
    (hstep : (contract host).step s l s') (hs : s.ResolvedOnce before) :
    s'.ResolvedOnce before := by
  cases l with
  | closeLedger n =>
    obtain ⟨-, -, rfl⟩ := hstep
    exact resolvedOnce_of_same (s := s) (fun _ _ => rfl) rfl hs
  | tokens b a =>
    obtain ⟨-, rfl⟩ := hstep
    exact resolvedOnce_of_same (s := s) (fun _ _ => rfl) rfl hs
  | call env c =>
    obtain ⟨-, h⟩ := hstep
    cases c with
    | governance g =>
      cases g with
      | createProposal creator key value =>
        obtain ⟨id, h⟩ := dropValue_eq_ok.mp h
        exact resolvedOnce_of_create hok h hs
      | voteProposal voter id approve => exact resolvedOnce_of_vote hok h hs
      | finalizeGovernanceProposal id =>
        obtain ⟨hres, hget, hkeys⟩ := finalizeGovernanceProposal_cases h
        refine resolvedOnce_of_moves ?_ (fun i => Or.inl ⟨resolvedCount_of_same hres i, ?_⟩) hs
        · simp only [State.getProposalCounter]
          rw [hkeys _ (by simp)]
        · intro q hq
          by_cases hi : i = id
          · rw [hi, hget] at hq
            cases hq
          · rw [State.getProposal, hkeys _ (by simpa using hi)] at hq
            exact ⟨(hs.keyed i q hq).1, q, hq, rfl⟩
      | adminSetProposerCooldown n =>
        have hf := frame_exec h
        exact resolvedOnce_of_same (hf.sameKind rfl) (hf.resolutions rfl) hs
    | claim c | policy c | treasury c | setting c =>
      obtain ⟨hsame, hres⟩ := sameGovernance_of_exec h (by simp)
      exact resolvedOnce_of_same hsame hres hs

end Once

theorem resolvedOnce_of_steps {host : Host} {s₀ s : State} (h₀ : s₀.Fresh host)
    (hrun : (contract host).Steps ClosesOnce s₀ s) : s.ResolvedOnce s₀.resolvedCount := by
  refine hrun.invariant (I := State.ResolvedOnce s₀.resolvedCount) ?_ ?_
  · intro s l s' hok hstep hs
    exact resolvedOnce_of_step hok hstep hs
  · have hnone : ∀ id, s₀.getProposal id = none := fun id => State.Fresh.get host h₀ _
    refine ⟨fun id p hp => ?_, fun _ => Nat.le_succ _, fun _ _ _ _ => rfl, fun _ _ => rfl⟩
    rw [hnone] at hp
    cases hp

/-- **A proposal takes effect at most once.**  In every run in which no vote on an applied
proposal finds a majority, and ids are not used up, a proposal is resolved at most once, and once
it is resolved a vote on it changes neither parameter. -/
theorem proposal_resolved_once {host : Host} {s₀ s : State} (h₀ : s₀.Fresh host)
    (hrun : (contract host).Steps ClosesOnce s₀ s) (id : Nat) :
    s.resolvedCount id ≤ s₀.resolvedCount id + 1 ∧
      (s₀.resolvedCount id < s.resolvedCount id → ∀ env voter approve s',
        ClosesOnce s (.call env (.governance (.voteProposal voter id approve))) →
        (contract host).step s (.call env (.governance (.voteProposal voter id approve))) s' →
        s'.getQuorumBps = s.getQuorumBps ∧
          s'.getVotingDurationLedgers = s.getVotingDurationLedgers) := by
  have hinv := resolvedOnce_of_steps h₀ hrun
  refine ⟨hinv.once id, fun hresolved env voter approve s' hok hstep => ?_⟩
  obtain ⟨p, s₁, hp, -, hkeys, -, -, rfl⟩ := voteProposal_cases hstep.2
  have happlied : p.applied = true := by
    by_contra hopen
    have := hinv.opened id p hp (by simpa using hopen)
    omega
  obtain ⟨ha, hr⟩ := hok p hp happlied
  have hq : s₁.quorumRequired = s.quorumRequired :=
    quorumRequired_of_same fun k hk => hkeys k (by rintro rfl; cases hk)
  rcases closeVote_cases s₁ (p.count approve) with ⟨hquorum, -⟩ | ⟨hquorum, -⟩ | ⟨-, -, hb, hd⟩
  · omega
  · omega
  · simp only [State.getQuorumBps, State.getVotingDurationLedgers]
    rw [hb, hd, hkeys _ (by simp), hkeys _ (by simp)]
    exact ⟨rfl, rfl⟩

/-- A governance call of the deployment. -/
def demoGov (c : GovernanceCall) : Label := demoCall (.governance c)

/-- Account 1 proposes a quorum of 6000 basis points, and the accounts 1 and 2 approve it. -/
def demoProposal : List Label :=
  demoSetup ++ [demoGov (.createProposal 1 quorumBpsKey 6000), demoGov (.voteProposal 1 1 true),
    demoGov (.voteProposal 2 1 true)]

/-- The check of a run in which no applied proposal is voted on. -/
def checkClosesOnce (s : State) : Label → Bool
  | .call _ (.governance (.voteProposal _ id _)) =>
    (s.getProposal id).all fun p => !p.applied
  | .call _ (.governance (.createProposal ..)) => decide (s.getProposalCounter < U64_MAX)
  | _ => true

theorem closesOnce_of_check (s : State) (l : Label) (h : checkClosesOnce s l = true) :
    ClosesOnce s l := by
  unfold checkClosesOnce at h
  unfold ClosesOnce
  split at h
  · intro p hp happlied
    rw [hp] at h
    simp [happlied] at h
  · simpa using h
  · trivial

/-- Two of three voters approve the proposal, and it is applied once. -/
theorem proposal_resolved_once_demo :
    ∃ s, (deployed 0).Fresh demoHost ∧ (contract demoHost).Steps ClosesOnce (deployed 0) s ∧
      s.resolvedCount 1 = 1 ∧ s.getQuorumBps = 6000 ∧
      s.resolvedCount 1 ≤ (deployed 0).resolvedCount 1 + 1 := by
  obtain ⟨s, hrun, hval⟩ := exists_steps_of_follow closesOnce_of_check (deployed 0)
    demoProposal (f := fun s => (s.resolvedCount 1, s.getQuorumBps)) (a := (1, 6000))
    (by simp [demoProposal, demoSetup, demoGov, demoInit, demoBind]) (by decide +kernel)
  rw [Prod.mk.injEq] at hval
  have hfresh : (deployed 0).Fresh demoHost := fresh_deployed (by decide)
  exact ⟨s, hfresh, hrun, hval.1, hval.2, (proposal_resolved_once hfresh hrun 1).1⟩

/-- **A vote on an applied proposal applies it again.**  After the proposal took effect the admin
sets another quorum; the last voter rejects the proposal, and its value is back. -/
theorem proposal_resolved_twice :
    ∃ s s', (contract demoHost).Steps always (deployed 0) s ∧
      (contract demoHost).step s (demoGov (.voteProposal 3 1 false)) s' ∧
      (deployed 0).resolvedCount 1 = 0 ∧ s.resolvedCount 1 = 1 ∧ s.getQuorumBps = 7000 ∧
      s'.resolvedCount 1 = 2 ∧ s'.getQuorumBps = 6000 := by
  obtain ⟨s, s', hrun, hstep, hval⟩ := exists_steps_of_followCall always_of_noCheck
    (deployed 0) (demoProposal ++ [demoCall (.setting (.adminSetQuorumBps 7000))])
    (c := .governance (.voteProposal 3 1 false))
    (f := fun s s' => (s.resolvedCount 1, s.getQuorumBps, s'.resolvedCount 1, s'.getQuorumBps))
    (a := (1, 7000, 2, 6000)) (by simp [demoProposal, demoSetup, demoGov, demoInit, demoBind])
    (by decide +kernel)
  simp only [Prod.mk.injEq] at hval
  obtain ⟨h₁, h₂, h₃, h₄⟩ := hval
  exact ⟨s, s', hrun, hstep, rfl, h₁, h₂, h₃, h₄⟩

/-! ## A proposal is applied by a majority -/

/-- The members of the registry with an approving vote on the proposal. -/
def State.approvers (s : State) (id : Nat) : Finset Address :=
  s.getVoters.toFinset.filter fun v => s.get (.proposalVote id v) = some true

/-- An approving vote comes from the registry, and a call leaves the voters in the registry who
have approved a stored proposal. -/
def KeepsApprovers (s : State) : Label → Prop
  | .call env c =>
    (∀ voter id, c = .governance (.voteProposal voter id true) → voter ∈ s.getVoters) ∧
    ∀ s', c.exec env s = .ok s' → ∀ id v, (s.getProposal id).isSome = true →
      v ∈ s.approvers id → v ∈ s'.getVoters
  | _ => True

/-- The approvals that a stored proposal counts are there, by members of the registry. -/
def State.Approved (s : State) : Prop :=
  ∀ id p, s.getProposal id = some p → p.proposalId = id ∧ p.approveVotes ≤ (s.approvers id).card

section Majority

variable {env : Env} {s s' : State}

theorem mem_approvers {id : Nat} {v : Address} :
    v ∈ s.approvers id ↔ v ∈ s.getVoters ∧ s.get (.proposalVote id v) = some true := by
  rw [State.approvers, Finset.mem_filter, List.mem_toFinset]

theorem approvers_subset {id : Nat} (hstay : ∀ v ∈ s.approvers id, v ∈ s'.getVoters)
    (hvotes : ∀ v, s.get (.proposalVote id v) = some true →
      s'.get (.proposalVote id v) = some true) : s.approvers id ⊆ s'.approvers id := by
  intro v hv
  exact mem_approvers.mpr ⟨hstay v hv, hvotes v (mem_approvers.mp hv).2⟩

theorem approved_of_same (h : SameKind .governance s s')
    (hstay : ∀ id v, (s.getProposal id).isSome = true → v ∈ s.approvers id → v ∈ s'.getVoters)
    (hs : s.Approved) : s'.Approved := by
  intro id p hp
  rw [State.getProposal, h (.proposal id) rfl] at hp
  obtain ⟨hid, hle⟩ := hs id p hp
  have hsub : s.approvers id ⊆ s'.approvers id := by
    refine approvers_subset (fun v hv => hstay id v (by simp [hp]) hv) fun v hv => ?_
    rw [h (.proposalVote id v) rfl, hv]
  exact ⟨hid, hle.trans (Finset.card_le_card hsub)⟩

/-- A recorded vote, before it is closed: the count of the proposal with it is covered. -/
theorem approvers_of_vote {voter : Address} {p : Proposal} {approve : Bool} {s₁ : State}
    (hmember : approve = true → voter ∈ s.getVoters)
    (hnone : s.get (.proposalVote p.proposalId voter) = none)
    (hkeys : ∀ k, k ≠ .proposalVote p.proposalId voter → s₁.get k = s.get k)
    (hvote : s₁.get (.proposalVote p.proposalId voter) = some approve)
    (hle : p.approveVotes ≤ (s.approvers p.proposalId).card) :
    (p.count approve).approveVotes ≤ (s₁.approvers p.proposalId).card := by
  have hvoters : s₁.getVoters = s.getVoters :=
    getVoters_of_same fun k hk => hkeys k (by rintro rfl; cases hk)
  have hout : voter ∉ s.approvers p.proposalId := by
    intro hin
    rw [mem_approvers, hnone] at hin
    cases hin.2
  have hsub : s.approvers p.proposalId ⊆ s₁.approvers p.proposalId := by
    refine approvers_subset (fun v hv => hvoters ▸ (mem_approvers.mp hv).1) fun v hv => ?_
    rw [hkeys _ fun heq => by cases heq; rw [hnone] at hv; cases hv]
    exact hv
  cases approve with
  | false => exact hle.trans (Finset.card_le_card hsub)
  | true =>
    have hin : voter ∈ s₁.approvers p.proposalId :=
      mem_approvers.mpr ⟨hvoters ▸ hmember rfl, hvote⟩
    have hcard := Finset.card_le_card (Finset.insert_subset hin hsub)
    rw [Finset.card_insert_of_notMem hout] at hcard
    change saturatingAdd32 p.approveVotes 1 ≤ _
    rw [saturatingAdd32]
    omega

theorem approvers_of_same {id : Nat} (hvoters : SameKind .registry s s')
    (hvotes : ∀ v, s'.get (.proposalVote id v) = s.get (.proposalVote id v)) :
    s'.approvers id = s.approvers id := by
  ext v
  rw [mem_approvers, mem_approvers, getVoters_of_same hvoters, hvotes]

theorem approvers_closeVote {p : Proposal} (id : Nat) :
    (s.closeVote p).approvers id = s.approvers id := by
  refine approvers_of_same (fun k hk => ?_) fun v => ?_
  · exact get_closeVote (by rintro rfl; cases hk) (by rintro rfl; cases hk)
      (by rintro rfl; cases hk)
  · exact get_closeVote (by simp) (by simp) (by simp)

theorem approved_of_vote {voter : Address} {id : Nat} {approve : Bool}
    (hmember : approve = true → voter ∈ s.getVoters)
    (h : voteProposal env s voter id approve = .ok s') (hs : s.Approved) : s'.Approved := by
  obtain ⟨p, s₁, hp, hnone, hkeys, hvote, -, rfl⟩ := voteProposal_cases h
  obtain ⟨rfl, hle⟩ := hs id p hp
  have hcount := approvers_of_vote hmember hnone hkeys hvote hle
  intro i q hq
  rw [approvers_closeVote]
  by_cases hi : i = p.proposalId
  · subst hi
    have hcases := closeVote_cases s₁ (p.count approve)
    rw [count_proposalId] at hcases
    rcases hcases with ⟨-, hget, -⟩ | ⟨-, hget, -⟩ | ⟨hget, -⟩
    · rw [hget, Option.some.injEq] at hq
      rw [← hq]
      exact ⟨rfl, hcount⟩
    · rw [hget] at hq
      cases hq
    · rw [hget, Option.some.injEq] at hq
      rw [← hq]
      exact ⟨count_proposalId p approve, hcount⟩
  · rw [State.getProposal, get_closeVote (by simpa using hi) (by simp) (by simp),
      hkeys _ (by simp)] at hq
    obtain ⟨hid, hle'⟩ := hs i q hq
    refine ⟨hid, ?_⟩
    have happrovers : s₁.approvers i = s.approvers i := by
      refine approvers_of_same (fun k hk => ?_) fun v => ?_
      · exact hkeys k (by rintro rfl; cases hk)
      · exact hkeys _ (by simp [hi])
    rw [happrovers]
    exact hle'

theorem approved_of_step {host : Host} {l : Label} (hok : KeepsApprovers s l)
    (hstep : (contract host).step s l s') (hs : s.Approved) : s'.Approved := by
  cases l with
  | closeLedger n =>
    obtain ⟨-, -, rfl⟩ := hstep
    exact hs
  | tokens b a =>
    obtain ⟨-, rfl⟩ := hstep
    exact hs
  | call env c =>
    obtain ⟨-, h⟩ := hstep
    obtain ⟨hmember, hstay⟩ := hok
    cases c with
    | governance g =>
      cases g with
      | createProposal creator key value =>
        obtain ⟨id, h'⟩ := dropValue_eq_ok.mp h
        obtain ⟨p, -, hpid, hzero, -, hget, -, -, hkeys⟩ := createProposal_cases h'
        intro i q hq
        by_cases hi : i = id
        · subst hi
          rw [hget, Option.some.injEq] at hq
          rw [← hq, hpid, hzero]
          exact ⟨rfl, Nat.zero_le _⟩
        · rw [State.getProposal, hkeys _ (by simpa using hi) (by simp) (by simp)] at hq
          rw [approvers_of_same (s := s)]
          · exact hs i q hq
          · intro k hk
            exact hkeys k (by rintro rfl; cases hk) (by rintro rfl; cases hk)
              (by rintro rfl; cases hk)
          · intro v
            exact hkeys _ (by simp) (by simp) (by simp)
      | voteProposal voter id approve =>
        refine approved_of_vote ?_ h hs
        rintro rfl
        exact hmember voter id rfl
      | finalizeGovernanceProposal id =>
        obtain ⟨-, hget, hkeys⟩ := finalizeGovernanceProposal_cases h
        intro i q hq
        by_cases hi : i = id
        · rw [hi, hget] at hq
          cases hq
        · rw [State.getProposal, hkeys _ (by simpa using hi)] at hq
          rw [approvers_of_same (s := s)]
          · exact hs i q hq
          · intro k hk
            exact hkeys k (by rintro rfl; cases hk)
          · intro v
            exact hkeys _ (by simp)
      | adminSetProposerCooldown n =>
        exact approved_of_same ((frame_exec h).sameKind rfl) (hstay s' h) hs
    | claim c | policy c | treasury c | setting c =>
      exact approved_of_same (sameGovernance_of_exec h (by simp)).1 (hstay s' h) hs

theorem approved_of_reach {host : Host} (h : (contract host).Reach KeepsApprovers s) :
    s.Approved := by
  refine h.invariant (I := State.Approved) ?_ ?_
  · intro s hs id p hp
    rw [State.getProposal, State.Fresh.get host hs] at hp
    cases hp
  · intro s l s' hok hstep hs
    exact approved_of_step hok hstep hs

theorem isVote_of_resolutions {host : Host} {l : Label} (hstep : (contract host).step s l s')
    (hne : s'.resolutions ≠ s.resolutions) :
    ∃ env voter id approve, l = .call env (.governance (.voteProposal voter id approve)) := by
  cases l with
  | closeLedger n =>
    obtain ⟨-, -, rfl⟩ := hstep
    exact absurd rfl hne
  | tokens b a =>
    obtain ⟨-, rfl⟩ := hstep
    exact absurd rfl hne
  | call env c =>
    obtain ⟨-, h⟩ := hstep
    cases c with
    | governance g =>
      cases g with
      | createProposal creator key value =>
        obtain ⟨id, h⟩ := dropValue_eq_ok.mp h
        obtain ⟨-, -, -, -, -, -, -, hres, -⟩ := createProposal_cases h
        exact absurd hres hne
      | voteProposal voter id approve => exact ⟨env, voter, id, approve, rfl⟩
      | finalizeGovernanceProposal id =>
        exact absurd (finalizeGovernanceProposal_cases h).1 hne
      | adminSetProposerCooldown n => exact absurd ((frame_exec h).resolutions rfl) hne
    | claim c | policy c | treasury c | setting c =>
      exact absurd (sameGovernance_of_exec h (by simp)).2 hne

theorem quorum_of_applied {p : Proposal} {id : Nat}
    (h : s.appliedCount id < (s.closeVote p).appliedCount id) :
    p.proposalId = id ∧ s.quorumRequired ≤ p.approveVotes := by
  rcases closeVote_cases s p with ⟨hq, -, hlog⟩ | ⟨-, -, hlog⟩ | ⟨-, hlog, -⟩
  · rw [State.appliedCount, State.appliedCount, hlog, List.countP_append] at h
    by_cases hid : p.proposalId = id
    · exact ⟨hid, hq⟩
    · simp [Event.applies, hid] at h
  · rw [State.appliedCount, State.appliedCount, hlog, List.countP_append] at h
    simp [Event.applies] at h
  · rw [State.appliedCount, State.appliedCount, hlog] at h
    exact absurd h (lt_irrefl _)

theorem majority_of_quorum {id n : Nat} (hsound : s.RegistrySound) (hq : s.quorumRequired ≤ n)
    (hn : n ≤ (s.approvers id).card) :
    0 < s.getVoters.length ∧ s.getVoters.length / 2 + 1 ≤ (s.approvers id).card := by
  have hcard : (s.approvers id).card ≤ s.getVoters.length :=
    (Finset.card_filter_le _ _).trans (List.toFinset_card_le _)
  have hcap := hsound.within_cap
  have hmax : MAX_ELIGIBLE_VOTERS < U32_MAX := by decide
  unfold State.quorumRequired saturatingAdd32 at hq
  dsimp only at hq
  split at hq <;> omega

end Majority

/-- **A proposal is applied by a majority.**  In every run in which approving votes come from the
registry, and the voters who have approved a stored proposal stay in it, a step that applies a
proposal finds approving votes of more than half of the registry. -/
theorem proposal_applied_by_majority {host : Host} {s s' : State} {l : Label} {id : Nat}
    (hreach : (contract host).Reach KeepsApprovers s) (hok : KeepsApprovers s l)
    (hstep : (contract host).step s l s') (happlied : s.appliedCount id < s'.appliedCount id) :
    0 < s'.getVoters.length ∧ s'.getVoters.length / 2 + 1 ≤ (s'.approvers id).card := by
  have hne : s'.resolutions ≠ s.resolutions := by
    intro heq
    rw [State.appliedCount, State.appliedCount, heq] at happlied
    exact lt_irrefl _ happlied
  have hsound := registrySound_of_reach (hreach.tail hok hstep).to_always
  obtain ⟨env, voter, i, approve, rfl⟩ := isVote_of_resolutions hstep hne
  obtain ⟨p, s₁, hp, hnone, hkeys, hvote, hres, rfl⟩ := voteProposal_cases hstep.2
  obtain ⟨rfl, hle⟩ := approved_of_reach hreach i p hp
  have hsame : s.appliedCount id = s₁.appliedCount id := by
    rw [State.appliedCount, State.appliedCount, hres]
  rw [hsame] at happlied
  obtain ⟨hid, hq⟩ := quorum_of_applied happlied
  rw [count_proposalId] at hid
  subst hid
  have hcount := approvers_of_vote (fun htrue => hok.1 voter p.proposalId (by rw [htrue])) hnone
    hkeys hvote hle
  have hregistry : SameKind .registry s₁ (s₁.closeVote (p.count approve)) := by
    intro k hk
    exact get_closeVote (by rintro rfl; cases hk) (by rintro rfl; cases hk)
      (by rintro rfl; cases hk)
  rw [← quorumRequired_of_same hregistry] at hq
  rw [← approvers_closeVote (p := p.count approve)] at hcount
  exact majority_of_quorum hsound hq hcount

/-! ## Two runs of a vote -/

/-- An approving vote comes from the registry. -/
def Call.votesAsMember (s : State) : Call → Bool
  | .governance (.voteProposal voter _ true) => decide (voter ∈ s.getVoters)
  | _ => true

/-- The check of a run in which approving votes come from the registry and no voter leaves it. -/
def checkKeepsApprovers (s : State) : Label → Bool
  | .call env c =>
    c.votesAsMember s && match c.exec env s with
      | .ok s' => s.getVoters.all fun v => decide (v ∈ s'.getVoters)
      | .error _ => true
  | _ => true

theorem keepsApprovers_of_check (s : State) (l : Label) (h : checkKeepsApprovers s l = true) :
    KeepsApprovers s l := by
  cases l with
  | closeLedger n => trivial
  | tokens b a => trivial
  | call env c =>
    rw [checkKeepsApprovers, Bool.and_eq_true] at h
    obtain ⟨hvote, hstay⟩ := h
    refine ⟨?_, fun s' hs' id v _ hv => ?_⟩
    · rintro voter id rfl
      simpa [Call.votesAsMember] using hvote
    · rw [hs', List.all_eq_true] at hstay
      simpa using hstay v (mem_approvers.mp hv).1

/-- Two of three voters approve the proposal, and it is applied. -/
theorem proposal_applied_by_two_of_three :
    ∃ s s', (contract demoHost).Reach KeepsApprovers s ∧
      (contract demoHost).step s (demoGov (.voteProposal 2 1 true)) s' ∧
      s.appliedCount 1 < s'.appliedCount 1 ∧ s'.getVoters.length = 3 ∧
      s'.getVoters.length / 2 + 1 ≤ (s'.approvers 1).card := by
  obtain ⟨s, s', hreach, hstep, hval⟩ := exists_of_followCall keepsApprovers_of_check
    (deployed 0) (demoSetup ++
      [demoGov (.createProposal 1 quorumBpsKey 6000), demoGov (.voteProposal 1 1 true)])
    (c := .governance (.voteProposal 2 1 true))
    (f := fun s s' => (s.appliedCount 1, s'.appliedCount 1, s'.getVoters.length,
      checkKeepsApprovers s (demoGov (.voteProposal 2 1 true))))
    (a := (0, 1, 3, true)) (fresh_deployed (by decide))
    (by simp [demoSetup, demoGov, demoInit, demoBind]) (by decide +kernel)
  simp only [Prod.mk.injEq] at hval
  obtain ⟨h₁, h₂, h₃, h₄⟩ := hval
  have happlied : s.appliedCount 1 < s'.appliedCount 1 := by omega
  exact ⟨s, s', hreach, hstep, happlied, h₃,
    (proposal_applied_by_majority hreach (keepsApprovers_of_check s _ h₄) hstep happlied).2⟩

/-- **One member's approval is enough.**  Account 1 approves and passes its policy on to account
4, which approves too: two votes are counted, and one of them is of the registry of three. -/
theorem proposal_applied_by_minority :
    ∃ s s', (contract demoHost).Reach always s ∧
      (contract demoHost).step s (demoGov (.voteProposal 4 1 true)) s' ∧
      s.appliedCount 1 < s'.appliedCount 1 ∧ s'.getVoters.length = 3 ∧
      ¬ s'.getVoters.length / 2 + 1 ≤ (s'.approvers 1).card := by
  obtain ⟨s, s', hreach, hstep, hval⟩ := exists_of_followCall always_of_noCheck
    (deployed 0) (demoSetup ++
      [demoGov (.createProposal 1 quorumBpsKey 6000), demoGov (.voteProposal 1 1 true),
        demoCall (.policy (.transferPolicy 1 1 4))])
    (c := .governance (.voteProposal 4 1 true))
    (f := fun s s' => (s.appliedCount 1, s'.appliedCount 1, s'.getVoters.length,
      (s'.approvers 1).card))
    (a := (0, 1, 3, 1)) (fresh_deployed (by decide))
    (by simp [demoSetup, demoGov, demoInit, demoBind]) (by decide +kernel)
  simp only [Prod.mk.injEq] at hval
  obtain ⟨h₁, h₂, h₃, h₄⟩ := hval
  exact ⟨s, s', hreach, hstep, by omega, h₃, by omega⟩

end NiffyInsure
