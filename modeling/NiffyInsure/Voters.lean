import NiffyInsure.Lib.Chain
import NiffyInsure.Storage

/-!
# The voter registry, snapshots and delegations

The registry of eligible voters is kept in buckets of `VOTER_BUCKET_SIZE` addresses with
a membership flag each; removing a voter fills its place with the last one.  Filing a
claim freezes the electorate of the claim: the registry without the claimant, sampled
down to `max_voters_per_claim` with a generator seeded by the claim id
(`snapshotClaimVoters`).

`resolveVoteDelegationTarget` follows the delegations that have not expired.  The loop
of the source has no bound of its own; here it is a `PointerChain.walk` with one unit of
fuel more than there are delegations, and `resolveVoteDelegationTarget_ne_trap` says that
this is always enough.
-/

namespace NiffyInsure

open KeyedStore PointerChain

namespace State

variable (s : State)

/-! ## The registry -/

abbrev getVoterBucketCount : Nat := (s.get .voterBucketCount).getD 0
abbrev getVoterBucket (index : Nat) : List Address := (s.get (.voterBucket index)).getD []
abbrev voterRegistryLen : Nat := (s.get .voterRegistryLen).getD 0
abbrev voterRegistryContains (holder : Address) : Bool := (s.get (.voterMember holder)).getD false

/-- `get_voters`: the buckets one after the other. -/
def getVoters : List Address := (List.range s.getVoterBucketCount).flatMap s.getVoterBucket

/-- `append_voter_unchecked`. -/
def appendVoterUnchecked (holder : Address) : State :=
  let bucketCount := s.getVoterBucketCount
  let s₁ :=
    if bucketCount = 0 then
      (s.set (.voterBucket 0) [holder]).set .voterBucketCount 1
    else
      let last := bucketCount - 1
      let bucket := s.getVoterBucket last
      if VOTER_BUCKET_SIZE ≤ bucket.length then
        (s.set (.voterBucket bucketCount) [holder]).set .voterBucketCount (bucketCount + 1)
      else s.set (.voterBucket last) (bucket ++ [holder])
  (s₁.set (.voterMember holder) true).set .voterRegistryLen
    (saturatingAdd32 s₁.voterRegistryLen 1)

/-- `add_voter`: enter the holder unless it is there, and count one more active policy. -/
def addVoter (holder : Address) : Result State := do
  let voters := s.getVoters
  let s₁ ←
    if holder ∈ voters then .ok s
    else if MAX_ELIGIBLE_VOTERS ≤ voters.length then .error (.error .voterRegistryFull)
    else .ok (s.appendVoterUnchecked holder)
  let count ← add32 (s₁.getActivePolicyCount holder) 1
  pure (s₁.set (.activePolicyCount holder) count)

/-- `decrement_holder_active_policies`. -/
def decrementHolderActivePolicies (holder : Address) : State :=
  s.set (.activePolicyCount holder) (s.getActivePolicyCount holder - 1)

/-- Where the scan of `remove_voter` finds the holder: bucket and offset. -/
def findVoter (holder : Address) : Option (Nat × Nat) :=
  (List.range s.getVoterBucketCount).findSome? fun i =>
    ((s.getVoterBucket i).idxOf? holder).map fun j => (i, j)

/-- Store a bucket, or drop it and lower the bucket count when it is empty. -/
def storeLastBucket (index : Nat) (bucket : List Address) : State :=
  if bucket = [] then (s.remove (.voterBucket index)).set .voterBucketCount index
  else s.set (.voterBucket index) bucket

/-- `remove_voter`: fill the holder's place with the last voter and shorten the last
bucket by one.  Reading the last voter of an empty bucket traps. -/
def removeVoter (holder : Address) : Result State :=
  if s.voterRegistryContains holder = false then .ok s
  else match s.findVoter holder with
    | none => .ok (s.remove (.voterMember holder))
    | some (bi, foundOffset) => do
      let lastBi := s.getVoterBucketCount - 1
      let lastBucket := s.getVoterBucket lastBi
      let lastOffset := lastBucket.length - 1
      let tail ← okOr lastBucket[lastOffset]? .trap
      let s₁ :=
        if bi = lastBi then
          s.storeLastBucket lastBi ((lastBucket.set foundOffset tail).take lastOffset)
        else
          (s.set (.voterBucket bi) ((s.getVoterBucket bi).set foundOffset tail)).storeLastBucket
            lastBi (lastBucket.take lastOffset)
      let s₂ := s₁.remove (.voterMember holder)
      pure (s₂.set .voterRegistryLen (s₂.voterRegistryLen - 1))

/-- The decrement that every deactivation of a policy does: one active policy less, and
out of the registry when none is left. -/
def dropActivePolicy (holder : Address) : Result State :=
  let s₁ := s.decrementHolderActivePolicies holder
  if s₁.getActivePolicyCount holder = 0 then s₁.removeVoter holder else .ok s₁

/-- The addresses of a batch that are new, each once, in order. -/
def newVoters : List Address → List Address → List Address
  | toAdd, [] => toAdd
  | toAdd, a :: rest =>
    if s.voterRegistryContains a then newVoters toAdd rest
    else if a ∈ toAdd then newVoters toAdd rest
    else newVoters (toAdd ++ [a]) rest

/-- `storage::add_voters_batch`. -/
def addVotersBatch (addresses : List Address) : Result (List Address × State) := do
  let toAdd := s.newVoters [] addresses
  ensure (saturatingAdd32 s.voterRegistryLen toAdd.length ≤ MAX_ELIGIBLE_VOTERS)
    (.error .voterRegistryFull)
  pure (toAdd, toAdd.foldl appendVoterUnchecked s)

/-- `voters_ensure_holder`: enter the holder unless it is there. -/
def votersEnsureHolder (holder : Address) : Result State :=
  let voters := s.getVoters
  if holder ∈ voters then .ok s
  else if MAX_ELIGIBLE_VOTERS ≤ voters.length then .error (.error .voterRegistryFull)
  else .ok (s.appendVoterUnchecked holder)

/-! ## The legacy vector

A deployment from before the buckets holds its voters in one vector.  Every function of the
registry first moves that vector into buckets.  A contract deployed with the buckets never has
one, so the functions above leave this first step out. -/

/-- The registry metadata with no bucket and no voter. -/
def resetVoterCounts : State := (s.set .voterBucketCount 0).set .voterRegistryLen 0

/-- `migrate_legacy_voters_if_needed`. -/
def migrateLegacyVotersIfNeeded : State :=
  match s.get .voters with
  | none => s
  | some legacy =>
    let s₁ := s.remove .voters
    let s₂ := (List.range s₁.getVoterBucketCount).foldl (fun t i => t.remove (.voterBucket i)) s₁
    legacy.foldl appendVoterUnchecked s₂.resetVoterCounts

/-- Drop one bucket and the membership of the voters in it. -/
def clearBucket (index : Nat) : State :=
  ((s.getVoterBucket index).foldl (fun t a => t.remove (.voterMember a)) s).remove
    (.voterBucket index)

/-- `set_voters`: the registry becomes the given list, without repetitions. -/
def setVoters (voters : List Address) : State :=
  let s₁ := (List.range s.getVoterBucketCount).foldl clearBucket s
  voters.foldl (fun t a => if t.voterRegistryContains a then t else t.appendVoterUnchecked a)
    s₁.resetVoterCounts

/-! ## Snapshots -/

end State

/-- Exchange the entries at `i` and `j`. -/
def swapAt (work : List Address) (i j : Nat) : List Address :=
  match work[i]?, work[j]? with
  | some a, some b => (work.set i b).set j a
  | _, _ => work

/-- The partial shuffle of `sample_voters_by_claim_id`: `steps` exchanges from place `i` on,
driven by a 64-bit linear congruential generator. -/
def shuffle (n : Nat) : (steps i state : Nat) → List Address → List Address
  | 0, _, _, work => work
  | steps + 1, i, state, work =>
    let state := (state * 6364136223846793005 + 1) % 2 ^ 64
    let j := i + state % (n - i)
    shuffle n steps (i + 1) state (if i ≠ j then swapAt work i j else work)

/-- `sample_voters_by_claim_id`. -/
def sampleVotersByClaimId (eligible : List Address) (maxVoters claimId : Nat) : List Address :=
  let n := eligible.length
  if maxVoters = 0 ∨ n = 0 then []
  else
    let take := min maxVoters n
    (shuffle n take 0 (claimId ^^^ 0x9E3779B97F4A7C15) eligible).take take

namespace State

variable (s : State)

/-- The electorate of a claim filed now by `claimant`. -/
def claimElectorate (claimId : Nat) (claimant : Address) : List Address :=
  let eligible := s.getVoters.filter (· ≠ claimant)
  let maxVoters := s.getMaxVotersPerClaim
  if maxVoters < eligible.length then sampleVotersByClaimId eligible maxVoters claimId
  else eligible

/-- `snapshot_claim_voters`. -/
def snapshotClaimVoters (claimId : Nat) (claimant : Address) : State :=
  s.set (.claimVoters claimId) (s.claimElectorate claimId claimant)

/-- `snapshot_appeal_voters`. -/
def snapshotAppealVoters (claimId : Nat) : State := s.set (.appealVoters claimId) s.getVoters

/-! ## Delegations -/

abbrev getVoteDelegations : AList fun _ : Address => VoteDelegation :=
  (s.get .voteDelegations).getD ∅

abbrev getVoteDelegation (delegator : Address) : Option VoteDelegation :=
  s.getVoteDelegations.lookup delegator

/-- `set_vote_delegation`. -/
def setVoteDelegation (delegator : Address) (delegation : VoteDelegation) : State :=
  s.set .voteDelegations (s.getVoteDelegations.insert delegator delegation)

/-- The delegate of an unexpired delegation of `delegator`. -/
def activeDelegate (now : Nat) (delegator : Address) : Option Address :=
  match s.getVoteDelegation delegator with
  | some d => if d.expiryLedger < now then none else some d.delegate
  | none => none

/-- `resolve_vote_delegation_target`. -/
def resolveVoteDelegationTarget (start : Address) (now : Nat) : Result Address :=
  match walk (s.activeDelegate now) (s.getVoteDelegations.keys.length + 1) [] start with
  | .stop target => .ok target
  | .cycle => .error (.error .circularDelegation)
  | .outOfFuel => .error .trap

/-- **The delegation loop always ends by itself.** -/
theorem resolveVoteDelegationTarget_ne_trap (start : Address) (now : Nat) :
    s.resolveVoteDelegationTarget start now ≠ .error .trap := by
  have hfuel : walk (s.activeDelegate now) (s.getVoteDelegations.keys.length + 1) [] start ≠
      .outOfFuel := by
    refine walk_ne_outOfFuel (S := s.getVoteDelegations.keys.toFinset) ?_ _ [] start
      List.nodup_nil (by simp) ?_
    · intro a b h
      rw [List.mem_toFinset, ← AList.mem_keys]
      unfold activeDelegate at h
      split at h
      · rename_i d hd
        exact AList.lookup_isSome.mp (by simp [hd])
      · cases h
    · have := List.toFinset_card_le s.getVoteDelegations.keys
      simp only [List.length_nil]
      omega
  unfold resolveVoteDelegationTarget
  split
  · simp
  · simp
  · contradiction

theorem leads_of_resolveVoteDelegationTarget {start target : Address} {now : Nat}
    (h : s.resolveVoteDelegationTarget start now = .ok target) :
    Leads (s.activeDelegate now) start target ∧ s.activeDelegate now target = none := by
  unfold resolveVoteDelegationTarget at h
  split at h
  · rename_i t ht
    cases h
    exact walk_eq_stop _ _ _ ht
  · cases h
  · cases h

theorem exists_resolveVoteDelegationTarget {now : Nat} (hac : Acyclic (s.activeDelegate now))
    (start : Address) : ∃ target, s.resolveVoteDelegationTarget start now = .ok target := by
  have htrap := s.resolveVoteDelegationTarget_ne_trap start now
  unfold resolveVoteDelegationTarget at htrap ⊢
  split
  · rename_i t _
    exact ⟨t, rfl⟩
  · rename_i hcycle
    exact absurd hcycle (walk_ne_cycle hac _ _ _ (by simp))
  · rename_i hfuel
    simp [hfuel] at htrap

end State

end NiffyInsure
