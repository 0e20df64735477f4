import NiffyInsure.Lib.WriteOnce
import NiffyInsure.VoterCap

/-!
# The commit-reveal protocol over whole runs

A voter first stores a commitment and later reveals the ballot behind it.  The stored commitment and
the stored ballot are registers that are written once, and the phases of a claim change only on the
admin's word, so over a whole run:

* what is revealed was committed before, by the same voter, who commits once for each claim;
* the ballot counts as it was revealed, once, and stays;
* from the first reveal on nobody commits on the claim while its phases stay, so no commitment is
  made in the knowledge of a revealed ballot.
-/

namespace NiffyInsure

open Machine

/-! ## The registers -/

/-- What the move commits the voter to. -/
def commitOf (claimId : Nat) (voter : Address) (m : Move State Label) : Option Bytes32 :=
  match m.label with
  | .call _ (.claim (.commitVote v id commitment)) =>
    if id = claimId ∧ v = voter then some commitment else none
  | _ => none

/-- The ballot that the move casts for the voter, openly or by revealing it. -/
def ballotOf (claimId : Nat) (voter : Address) (m : Move State Label) : Option VoteOption :=
  match m.label with
  | .call _ (.claim (.voteOnClaim v id vote))
  | .call _ (.claim (.revealVote v id vote _)) =>
    if id = claimId ∧ v = voter then some vote else none
  | _ => none

/-- The label sets the phases of the claim. -/
def Label.SetsPhases (claimId : Nat) : Label → Prop
  | .call _ (.claim (.setCommitRevealPhases id _ _)) => id = claimId
  | _ => False

/-- The commit phase of the claim is over. -/
def State.CommitClosed (s : State) (claimId : Nat) : Prop :=
  ∃ phases, s.get (.commitRevealPhases claimId) = some phases ∧
    phases.commitPhaseEndLedger < s.sequence

section Steps

variable {host : Host} {env : Env} {s s' : State} {l : Label} {claimId : Nat} {voter : Address}

theorem commitVote_eq_ok {commitment : Bytes32} :
    commitVote env s voter claimId commitment = .ok s' ↔ env.auths voter = true ∧
      (∃ phases, s.get (.commitRevealPhases claimId) = some phases ∧
        s.sequence ≤ phases.commitPhaseEndLedger) ∧
      s.get (.voteCommitment claimId voter) = none ∧
      (s.set (.voteCommitment claimId voter) commitment).emit
        (.voteCommitted claimId voter s.sequence) = s' := by
  simp only [commitVote, bind_eq_ok, okOr_eq_ok, ensure_eq_ok, requireAuth_eq_ok, pure_eq_ok]
  constructor
  · rintro ⟨-, hauth, phases, hphases, -, hopen, -, hnone, rfl⟩
    exact ⟨hauth, ⟨phases, hphases, hopen⟩, hnone, rfl⟩
  · rintro ⟨hauth, ⟨phases, hphases, hopen⟩, hnone, rfl⟩
    exact ⟨(), hauth, phases, hphases, (), hopen, (), hnone, rfl⟩

theorem get_of_setCommitRevealPhases {commitEnd revealEnd : Nat} {k : DataKey}
    (h : setCommitRevealPhases env s claimId commitEnd revealEnd = .ok s')
    (hk : k ≠ .commitRevealPhases claimId) : s'.get k = s.get k := by
  simp only [setCommitRevealPhases, bind_eq_ok, pure_eq_ok] at h
  obtain ⟨-, -, -, -, -, -, rfl⟩ := h
  exact State.get_set_of_ne _ _ hk

theorem revealVote_opens {vote : VoteOption} {salt : Bytes32}
    (h : revealVote env s voter claimId vote salt = .ok s') :
    s.CommitClosed claimId ∧ s.get (.voteCommitment claimId voter) =
      some (env.sha256 (commitmentPreimage env vote salt voter)) := by
  simp only [revealVote, bind_eq_ok, okOr_eq_ok, ensure_eq_ok] at h
  obtain ⟨-, -, phases, hphases, -, hopen, -, -, stored, hstored, -, -, -, rfl, -⟩ := h
  exact ⟨⟨phases, hphases, hopen⟩, hstored⟩

/-- The calls that touch what the protocol stores beside the ballots. -/
def ClaimCall.commitsOrSets : ClaimCall → Bool
  | .setCommitRevealPhases .. | .commitVote .. => true
  | _ => false

theorem ClaimCall.commitReveal_untouched {c : ClaimCall} (h : c.commitsOrSets = false) :
    c.kinds.contains .commitReveal = false := by
  cases c
  case setCommitRevealPhases | commitVote => cases h
  all_goals rfl

/-- The calls that cast a ballot of the base round. -/
def ClaimCall.casts : ClaimCall → Bool
  | .voteOnClaim .. | .revealVote .. => true
  | _ => false

theorem ClaimCall.vote_untouched {c : ClaimCall} (h : c.casts = false) :
    c.kinds.contains .vote = false := by
  cases c
  case voteOnClaim | revealVote => cases h
  all_goals rfl

theorem stored_of_casts {c : ClaimCall} (h : c.exec env s = .ok s') (hc : c.casts = true) :
    ∃ id v vote, s.getVote id v = none ∧ SameKind .vote (s.setVote id v vote) s' ∧
      ∀ claimId voter, ballotOf claimId voter ⟨s, .call env (.claim c), s'⟩ =
        if id = claimId ∧ v = voter then some vote else none := by
  have hran := ran_of_exec h
  cases c
  case voteOnClaim v id vote =>
    obtain ⟨st, hran⟩ := hran
    obtain ⟨claim, w, -, hcheck, -, hcase⟩ := voteOnClaim_cases hran
    obtain ⟨-, -, -, -, -, -, -, -, hnone⟩ := checkBallot_eq_ok.mp hcheck
    refine ⟨id, v, vote, hnone, ?_, fun _ _ => rfl⟩
    rcases hcase with ⟨-, rfl⟩ | ⟨outcome, -, hclosed⟩
    · rw [SameKind.set_iff rfl]
      exact .refl _ _
    · exact hclosed.frame.sameKind rfl
  case revealVote v id vote salt =>
    obtain ⟨-, -, hnone, -, hvote⟩ := revealVote_eq_ok hran
    exact ⟨id, v, vote, hnone, hvote, fun _ _ => rfl⟩
  all_goals cases hc

/-- Outside the claim calls that `touches` names, a kind stays that the other groups do not
touch. -/
theorem sameKind_of_step {kd : Kind} {touches : ClaimCall → Bool}
    (hclaim : ∀ c, touches c = false → c.kinds.contains kd = false)
    (hother : (policyKinds ++ treasuryKinds ++ settingKinds ++ governanceKinds).contains kd = false)
    (h : (contract host).step s l s')
    (hl : ∀ env c, l = .call env (.claim c) → touches c = false) : SameKind kd s s' := by
  obtain ⟨env, c, rfl, hexec⟩ | ⟨-, hsame⟩ := claimCall_or_same h
  · exact (frame_claimCall hexec).sameKind (hclaim c (hl env c rfl))
  · exact hsame kd hother

end Steps

/-! ## Written once -/

section Registers

variable (host : Host) (claimId : Nat) (voter : Address)

theorem writeOnce_commitment :
    WriteOnce (contract host) always (fun s => s.get (.voteCommitment claimId voter))
      (commitOf claimId voter) where
  init s hs := State.Fresh.get host hs _
  write := by
    intro s l t a _ hstep hw
    unfold commitOf at hw
    split at hw
    · rename_i env v id commitment hl
      change l = _ at hl
      subst hl
      split at hw
      · rename_i hkey
        obtain ⟨rfl, rfl⟩ := hkey
        cases hw
        obtain ⟨-, -, hnone, rfl⟩ := commitVote_eq_ok.mp hstep.2
        exact ⟨hnone, State.get_set_self _ _⟩
      · cases hw
    · cases hw
  keep := by
    intro s l t _ hstep hw
    by_cases hl : ∀ env c, l = .call env (.claim c) → c.commitsOrSets = false
    · exact sameKind_of_step (fun _ => ClaimCall.commitReveal_untouched) rfl hstep hl _ rfl
    · push Not at hl
      obtain ⟨env, c, rfl, hc⟩ := hl
      cases c
      case setCommitRevealPhases => exact get_of_setCommitRevealPhases hstep.2 (by simp)
      case commitVote v id commitment =>
        obtain ⟨-, -, -, rfl⟩ := commitVote_eq_ok.mp hstep.2
        refine State.get_set_of_ne _ _ ?_
        intro hkey
        cases hkey
        simp [commitOf] at hw
      all_goals exact absurd rfl hc

theorem writeOnce_ballot :
    WriteOnce (contract host) always (fun s => s.getVote claimId voter)
      (ballotOf claimId voter) := by
  refine .of_cases (fun s hs => State.Fresh.get host hs _) ?_
  intro s l t _ hstep
  by_cases hl : ∀ env c, l = .call env (.claim c) → c.casts = false
  · refine .inl ⟨?_, sameKind_of_step (fun _ => ClaimCall.vote_untouched) rfl hstep hl _ rfl⟩
    unfold ballotOf
    split
    · rename_i heq
      cases hl _ _ heq
    · rename_i heq
      cases hl _ _ heq
    · rfl
  · push Not at hl
    obtain ⟨env, c, rfl, hc⟩ := hl
    obtain ⟨id, v, vote, hnone, hvote, hballot⟩ := stored_of_casts hstep.2 (by simpa using hc)
    rw [hballot, getVote_of_ballot hvote]
    by_cases hkey : id = claimId ∧ v = voter
    · obtain ⟨rfl, rfl⟩ := hkey
      exact .inr ⟨vote, if_pos ⟨rfl, rfl⟩, hnone, if_pos ⟨rfl, rfl⟩⟩
    · exact .inl ⟨if_neg hkey, if_neg fun hc => hkey ⟨hc.1.symm, hc.2.symm⟩⟩

end Registers

/-! ## The commit phase stays closed -/

section Phases

variable {host : Host} {s s' : State} {l : Label} {claimId : Nat}

theorem phases_of_step (h : (contract host).step s l s') (hl : ¬ l.SetsPhases claimId) :
    s'.get (.commitRevealPhases claimId) = s.get (.commitRevealPhases claimId) := by
  by_cases htouch : ∀ env c, l = .call env (.claim c) → c.commitsOrSets = false
  · exact sameKind_of_step (fun _ => ClaimCall.commitReveal_untouched) rfl h htouch _ rfl
  · push Not at htouch
    obtain ⟨env, c, rfl, hc⟩ := htouch
    cases c
    case setCommitRevealPhases =>
      refine get_of_setCommitRevealPhases h.2 ?_
      intro hkey
      cases hkey
      exact hl rfl
    case commitVote =>
      obtain ⟨-, -, -, rfl⟩ := commitVote_eq_ok.mp h.2
      exact State.get_set_of_ne _ _ (by simp)
    all_goals exact absurd rfl hc

/-- Ledgers only go forward, so a closed commit phase is over until the phases are set anew. -/
theorem commitClosed_of_step (h : (contract host).step s l s') (hl : ¬ l.SetsPhases claimId)
    (hs : s.CommitClosed claimId) : s'.CommitClosed claimId := by
  obtain ⟨phases, hphases, hover⟩ := hs
  refine ⟨phases, (phases_of_step h hl).trans hphases, ?_⟩
  have hseq := (sequence_of_step h).1
  omega

theorem commitOf_eq_none_of_closed (h : (contract host).step s l s') (hs : s.CommitClosed claimId)
    (v : Address) : commitOf claimId v ⟨s, l, s'⟩ = none := by
  unfold commitOf
  split
  · rename_i env voter id commitment hl
    change l = _ at hl
    subst hl
    obtain ⟨-, ⟨phases, hphases, hopen⟩, -⟩ := commitVote_eq_ok.mp h.2
    rw [if_neg]
    rintro ⟨rfl, -⟩
    obtain ⟨phases', hphases', hover⟩ := hs
    rw [hphases] at hphases'
    cases hphases'
    omega
  · rfl

end Phases

/-! ## Runs -/

section Runs

variable {host : Host} {env : Env} {s : State} {earlier later : Journal} {m : Move State Label}
  {claimId : Nat} {voter : Address} {vote : VoteOption} {salt : Bytes32}

/-- What the moves before and after a reveal are like. -/
structure Opened (s : State) (earlier later : Journal) (claimId : Nat) (voter : Address)
    (vote : VoteOption) (commitment : Bytes32) : Prop where
  committed : ∃ first m between, earlier = first ++ m :: between ∧ m.label.SignedBy voter ∧
    commitOf claimId voter m = some commitment ∧
    ∀ m' ∈ first ++ between ++ later, commitOf claimId voter m' = none
  counted : s.getVote claimId voter = some vote ∧
    ∀ m' ∈ earlier ++ later, ballotOf claimId voter m' = none
  secret : (∀ m' ∈ later, ¬ m'.label.SetsPhases claimId) →
    ∀ v, ∀ m' ∈ later, commitOf claimId v m' = none

theorem signed_of_commitOf {commitment : Bytes32}
    (h : (contract host).step m.before m.label m.after)
    (hm : commitOf claimId voter m = some commitment) : m.label.SignedBy voter := by
  unfold commitOf at hm
  split at hm
  · rename_i env v id c hl
    split at hm
    · rename_i hkey
      rw [hl] at h ⊢
      obtain ⟨rfl, rfl⟩ := hkey
      exact (commitVote_eq_ok.mp h.2).1
    · cases hm
  · cases hm

/-- **The commit-reveal protocol.**  In every run a revealed ballot was committed before by its
voter, who commits once for the claim; it is the voter's only ballot on the claim and stays stored;
and while the phases of the claim stay, nobody commits after it. -/
theorem commit_reveal_protocol
    (h : (contract host).traced.Reach (fun p l => always p.1 l) (s, earlier ++ m :: later))
    (hm : m.label = .call env (.claim (.revealVote voter claimId vote salt))) :
    Opened s earlier later claimId voter vote
      (env.sha256 (commitmentPreimage env vote salt voter)) := by
  obtain ⟨hbefore, -, hstep⟩ := h.trace_split
  have hexec : revealVote env m.before voter claimId vote salt = .ok m.after := by
    rw [hm] at hstep
    exact ran_of_exec (c := .revealVote voter claimId vote salt) hstep.2
  obtain ⟨hclosed, hstored⟩ := revealVote_opens hexec
  constructor
  · -- the commitment that the reveal found was written by a commit before it
    obtain ⟨first, c, between, rfl, hc⟩ :=
      (writeOnce_commitment host claimId voter).exists_write hbefore hstored
    rw [List.append_assoc, List.cons_append] at h
    refine ⟨first, c, between, rfl, signed_of_commitOf (h.step_of_mem (by simp)) hc, hc, ?_⟩
    obtain ⟨-, honly⟩ := (writeOnce_commitment host claimId voter).alone h hc
    intro m' hm'
    refine honly m' ?_
    simp only [List.mem_append, List.mem_cons] at hm' ⊢
    tauto
  · refine (writeOnce_ballot host claimId voter).alone h ?_
    simp [ballotOf, hm]
  · intro hphases v m' hm'
    obtain ⟨l₁, l₂, rfl⟩ := List.append_of_mem hm'
    rw [← List.cons_append, ← List.append_assoc] at h
    obtain ⟨hrun, -, hstep'⟩ := h.trace_split
    refine commitOf_eq_none_of_closed hstep' ?_ v
    refine hrun.trace_rest (P := (State.CommitClosed · claimId)) ?_ ?_
    · exact commitClosed_of_step hstep (by rw [hm]; exact id) hclosed
    · intro x hx hxstep
      exact commitClosed_of_step hxstep (hphases x (List.mem_append_left _ hx))

/-- Account 1 commits, and reveals what it committed to. -/
theorem commit_reveal_protocol_demo : ∃ s g m,
    (contract demoHost).traced.Reach (fun p l => always p.1 l) (s, g ++ [m]) ∧
      Opened s g [] 1 1 .approve
        (demoEnv.sha256 (commitmentPreimage demoEnv .approve demoSalt 1)) := by
  obtain ⟨s, g, hreach, hok⟩ := exists_journal always_of_noCheck (deployed 0) selfRevealTrace
    (f := fun p => ((Call.claim (.revealVote 1 1 .approve demoSalt)).exec demoEnv p.1).isOk)
    (a := true) (fresh_deployed (by decide))
    (by simp [selfRevealTrace, filedTrace, demoSetup, demoInit, demoBind, demoFile])
    (by decide +kernel)
  obtain ⟨s', hstep⟩ := exists_step_of_isOk hok
  have hrun := hreach.tail trivial (t := (s', g ++ [⟨s, _, s'⟩])) ⟨hstep, rfl⟩
  exact ⟨s', g, _, hrun, commit_reveal_protocol hrun rfl⟩

end Runs

end NiffyInsure
