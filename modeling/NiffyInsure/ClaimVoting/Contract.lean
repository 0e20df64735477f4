import Mathlib.Data.List.AList
import NiffyInsure.Arith
import NiffyInsure.Lib.Machine

/-!
# The claim-voting contract

A contract of its own (`claim-voting/src/lib.rs`): voters delegate their vote on claims, and the
ballot of a delegate counts for its delegators too.  The persistent storage has a forward map
(`delegation`), the reverse lists (`delegators`), the claims, and for each claim the map of the
addresses that have voted.  An absent list or map reads as the empty one.

A panicking call is rolled back by the host, so that it is modelled by the panic alone.
`ballots` is a ghost log of the ballots that `cast_vote` tallied.
-/

namespace NiffyInsure.ClaimVoting

def MAX_DELEGATORS_PER_DELEGATE : Nat := 32

structure VoteDelegation where
  delegate : Address
  expiryLedger : Nat
  deriving DecidableEq

structure Claim where
  id : Nat
  voterSnapshot : List Address
  votesFor : Nat
  votesAgainst : Nat
  deriving DecidableEq

inductive VoteChoice where
  | For
  | Against
  deriving DecidableEq

/-- The panics, in the order of the source. -/
inductive Panic where
  /-- a failed `require_auth` -/
  | unauthorized
  /-- `"cannot delegate to self"` -/
  | delegateToSelf
  /-- `"expiry ledger must be in the future"` -/
  | expiryNotInFuture
  /-- `"delegation chains are not allowed"` -/
  | delegationChain
  /-- `"delegator cap exceeded"` -/
  | delegatorCapExceeded
  /-- `"claim not found"` -/
  | claimNotFound
  /-- `"voter not in snapshot"` -/
  | notInSnapshot
  /-- `"already voted"` -/
  | alreadyVoted
  /-- an overflow of a tally -/
  | overflow
  deriving DecidableEq

/-- The addresses that have voted on a claim, a `Map<Address, bool>`. -/
abbrev Voted := AList fun _ : Address => Bool

/-- `voted.get(a).unwrap_or(false)`. -/
def Voted.has (voted : Voted) (a : Address) : Bool := (voted.lookup a).getD false

/-- The addresses marked voted. -/
def Voted.marked (voted : Voted) : List Address :=
  (voted.entries.filter fun e => e.2).map fun e => e.1

/-- A ballot that was tallied: on which claim, for whom, in whose call. -/
structure Ballot where
  claimId : Nat
  voter : Address
  caller : Address
  choice : VoteChoice
  deriving DecidableEq

structure State where
  delegation : Address → Option VoteDelegation
  delegators : Address → List Address
  claim : Nat → Option Claim
  voted : Nat → Voted
  sequence : Nat
  ballots : List Ballot

section Entrypoints

variable (s : State) (auths : Address → Bool)

/-- `get_vote_delegation`. -/
def State.getVoteDelegation (delegator : Address) : Option VoteDelegation :=
  (s.delegation delegator).filter fun d => decide (s.sequence < d.expiryLedger)

/-- `delegate_vote`.  The second check for a chain reads the list of the delegate. -/
def State.delegateVote (delegator delegate : Address) (expiryLedger : Nat) : Except Panic State :=
  if auths delegator = false then .error .unauthorized
  else if delegator = delegate then .error .delegateToSelf
  else if expiryLedger ≤ s.sequence then .error .expiryNotInFuture
  else if (s.getVoteDelegation delegate).isSome then .error .delegationChain
  else if s.delegators delegate ≠ [] then .error .delegationChain
  else if MAX_DELEGATORS_PER_DELEGATE ≤ (s.delegators delegate).length then
    .error .delegatorCapExceeded
  else .ok { s with
    delegation := Function.update s.delegation delegator (some ⟨delegate, expiryLedger⟩)
    delegators := Function.update s.delegators delegate (s.delegators delegate ++ [delegator]) }

/-- `revoke_vote_delegation`. -/
def State.revokeVoteDelegation (delegator : Address) : Except Panic State :=
  if auths delegator = false then .error .unauthorized
  else match s.delegation delegator with
    | none => .ok s
    | some d => .ok { s with
        delegation := Function.update s.delegation delegator none
        delegators := Function.update s.delegators d.delegate
          ((s.delegators d.delegate).erase delegator) }

/-- `tally`. -/
def Claim.tally (claim : Claim) : VoteChoice → Except Panic Claim
  | .For =>
    if claim.votesFor + 1 ≤ U32_MAX then .ok { claim with votesFor := claim.votesFor + 1 }
    else .error .overflow
  | .Against =>
    if claim.votesAgainst + 1 ≤ U32_MAX then
      .ok { claim with votesAgainst := claim.votesAgainst + 1 }
    else .error .overflow

/-- The local variables of `cast_vote`: the claim, the map of who has voted, and (ghost) the
addresses whose ballot the call has tallied. -/
structure Count where
  claim : Claim
  voted : Voted
  tallied : List Address

/-- Mark `a` as voted and tally its ballot. -/
def Count.add (n : Count) (a : Address) (choice : VoteChoice) : Except Panic Count := do
  let claim ← n.claim.tally choice
  pure ⟨claim, n.voted.insert a true, n.tallied ++ [a]⟩

/-- Whether the delegation of `delegator` is active and points at `voter`. -/
def State.delegatesTo (delegator voter : Address) : Bool :=
  match s.getVoteDelegation delegator with
  | some d => d.delegate == voter
  | none => false

/-- The loop of `cast_vote` over the delegators of the voter. -/
def State.castDelegated (voter : Address) (choice : VoteChoice) :
    List Address → Count → Except Panic Count
  | [], n => .ok n
  | delegator :: rest, n =>
    if delegator ∉ n.claim.voterSnapshot then State.castDelegated voter choice rest n
    else if n.voted.has delegator then State.castDelegated voter choice rest n
    else if s.delegatesTo delegator voter = false then State.castDelegated voter choice rest n
    else do
      let n₁ ← n.add delegator choice
      State.castDelegated voter choice rest n₁

/-- `cast_vote`. -/
def State.castVote (voter : Address) (claimId : Nat) (choice : VoteChoice) : Except Panic State :=
  if auths voter = false then .error .unauthorized
  else match s.claim claimId with
    | none => .error .claimNotFound
    | some claim =>
      if voter ∉ claim.voterSnapshot then .error .notInSnapshot
      else if (s.voted claimId).has voter then .error .alreadyVoted
      else do
        let n₁ ← Count.add ⟨claim, s.voted claimId, []⟩ voter choice
        let n₂ ← s.castDelegated voter choice (s.delegators voter) n₁
        pure { s with
          voted := Function.update s.voted claimId n₂.voted
          claim := Function.update s.claim claimId (some n₂.claim)
          ballots := s.ballots ++ n₂.tallied.map fun a => ⟨claimId, a, voter, choice⟩ }

end Entrypoints

/-! ## The machine -/

inductive Call where
  | delegateVote (delegator delegate : Address) (expiryLedger : Nat)
  | revokeVoteDelegation (delegator : Address)
  | castVote (voter : Address) (claimId : Nat) (choice : VoteChoice)
  deriving DecidableEq

/-- Run a call that the addresses in `auths` have authorised. -/
def State.exec (s : State) (auths : Address → Bool) : Call → Except Panic State
  | .delegateVote delegator delegate expiryLedger =>
    s.delegateVote auths delegator delegate expiryLedger
  | .revokeVoteDelegation delegator => s.revokeVoteDelegation auths delegator
  | .castVote voter claimId choice => s.castVote auths voter claimId choice

/-- The state after a call: a panic rolls it back. -/
def State.invoke (s : State) (auths : Address → Bool) (c : Call) : State :=
  match s.exec auths c with
  | .ok s' => s'
  | .error _ => s

/-- What happens next: somebody calls the contract, or the ledger closes. -/
inductive Label where
  | call (auths : Address → Bool) (c : Call)
  | closeLedger (sequence : Nat)

/-- One step.  A call is a step whether it succeeds or panics. -/
def State.Step (s : State) : Label → State → Prop
  | .call auths c, s' => s' = s.invoke auths c
  | .closeLedger n, s' => s.sequence ≤ n ∧ n ≤ U32_MAX ∧ s' = { s with sequence := n }

/-- The contract, from the states that `init` admits. -/
def machine (init : State → Prop) : Machine State Label where
  init := init
  step := State.Step

/-! ## What the entrypoints do -/

section Specs

variable {s s' : State} {auths : Address → Bool}

theorem getVoteDelegation_eq_some {a : Address} {d : VoteDelegation} :
    s.getVoteDelegation a = some d ↔ s.delegation a = some d ∧ s.sequence < d.expiryLedger := by
  rw [State.getVoteDelegation, Option.filter_eq_some_iff, decide_eq_true_eq]

theorem delegatesTo_iff {a b : Address} :
    s.delegatesTo a b = true ↔ ∃ d, s.getVoteDelegation a = some d ∧ d.delegate = b := by
  unfold State.delegatesTo
  cases s.getVoteDelegation a with
  | none => simp
  | some d => simp

/-- **When `delegate_vote` succeeds, and what it writes.** -/
theorem delegateVote_eq_ok_iff {delegator delegate : Address} {expiry : Nat} :
    s.delegateVote auths delegator delegate expiry = .ok s' ↔
      auths delegator = true ∧ delegator ≠ delegate ∧ s.sequence < expiry ∧
        s.getVoteDelegation delegate = none ∧ s.delegators delegate = [] ∧
        s' = { s with
          delegation := Function.update s.delegation delegator (some ⟨delegate, expiry⟩)
          delegators := Function.update s.delegators delegate [delegator] } := by
  simp only [State.delegateVote, ite_error_eq_ok, Except.ok.injEq, not_not, Bool.not_eq_false,
    Nat.not_le, Bool.not_eq_true, Option.isSome_eq_false_iff, Option.isNone_iff_eq_none]
  constructor
  · rintro ⟨hauth, hself, hexp, hchain, hlist, -, rfl⟩
    refine ⟨hauth, hself, hexp, hchain, hlist, ?_⟩
    rw [hlist, List.nil_append]
  · rintro ⟨hauth, hself, hexp, hchain, hlist, rfl⟩
    -- the cap is never reached: the list is empty
    refine ⟨hauth, hself, hexp, hchain, hlist, ?_, ?_⟩
    · rw [hlist]
      decide
    · rw [hlist, List.nil_append]

theorem revokeVoteDelegation_eq_ok {delegator : Address}
    (h : s.revokeVoteDelegation auths delegator = .ok s') :
    (s.delegation delegator = none ∧ s' = s) ∨
      ∃ d, s.delegation delegator = some d ∧ s' = { s with
        delegation := Function.update s.delegation delegator none
        delegators := Function.update s.delegators d.delegate
          ((s.delegators d.delegate).erase delegator) } := by
  rw [State.revokeVoteDelegation, ite_error_eq_ok] at h
  obtain ⟨-, h⟩ := h
  split at h
  · rename_i hnone
    cases h
    exact .inl ⟨hnone, rfl⟩
  · rename_i d hd
    cases h
    exact .inr ⟨d, hd, rfl⟩

/-- **What `cast_vote` checks, and what it writes.** -/
theorem castVote_eq_ok {voter : Address} {claimId : Nat} {choice : VoteChoice}
    (h : s.castVote auths voter claimId choice = .ok s') :
    ∃ claim n₁ n₂, auths voter = true ∧ s.claim claimId = some claim ∧
      voter ∈ claim.voterSnapshot ∧ (s.voted claimId).has voter = false ∧
      Count.add ⟨claim, s.voted claimId, []⟩ voter choice = .ok n₁ ∧
      s.castDelegated voter choice (s.delegators voter) n₁ = .ok n₂ ∧
      s' = { s with
        voted := Function.update s.voted claimId n₂.voted
        claim := Function.update s.claim claimId (some n₂.claim)
        ballots := s.ballots ++ n₂.tallied.map fun a => ⟨claimId, a, voter, choice⟩ } := by
  rw [State.castVote, ite_error_eq_ok, Bool.not_eq_false] at h
  obtain ⟨hauth, h⟩ := h
  split at h
  · cases h
  · rename_i claim hclaim
    rw [ite_error_eq_ok, ite_error_eq_ok, not_not, Bool.not_eq_true] at h
    obtain ⟨hlisted, hunvoted, h⟩ := h
    obtain ⟨n₁, hadd, h⟩ := bind_eq_ok.mp h
    obtain ⟨n₂, hloop, h⟩ := bind_eq_ok.mp h
    cases h
    exact ⟨claim, n₁, n₂, hauth, hclaim, hlisted, hunvoted, hadd, hloop, rfl⟩

theorem step_cases {l : Label} (h : s.Step l s') :
    (∃ auths c, l = .call auths c ∧ s.exec auths c = .ok s') ∨ s' = s ∨
      ∃ n, s.sequence ≤ n ∧ s' = { s with sequence := n } := by
  cases l with
  | call auths c =>
    change s' = s.invoke auths c at h
    unfold State.invoke at h
    split at h
    · rename_i t hexec
      exact .inl ⟨auths, c, rfl, by rw [h, hexec]⟩
    · exact .inr (.inl h)
  | closeLedger n =>
    obtain ⟨hle, -, rfl⟩ := h
    exact .inr (.inr ⟨n, hle, rfl⟩)

end Specs

end NiffyInsure.ClaimVoting
