import NiffyInsure.Backend.Database
import NiffyInsure.ClaimStep
import NiffyInsure.QuorumThreshold

/-!
# How many votes the backend says are missing

`claim-aggregation.service.ts` takes a simple majority of the eligible voters for the quorum, where
the contract takes a share of them in basis points, rounded up.

* `votesNeeded_compute`: what the aggregation says about a claim.
* `resolvesAfter_iff`: after which further ballots the contract resolves the claim.
* `quorum_parity_iff`: when the two agree.
-/

namespace NiffyInsure.Backend.QuorumProgress

def VOTE_WINDOW_LEDGERS : Nat := 120960

def SECONDS_PER_LEDGER : Nat := 5

structure ClaimAggregation where
  quorumProgressPct : Nat
  votesNeeded : Nat
  deadlineEstimateUtc : String
  requiredVotes : Nat
  currentVotes : Nat
  eligibleVoterSource : String
  deriving DecidableEq

/-- The clock in milliseconds, `toISOString` of a date, and `Math.round((a / b) * 100)`, which is
computed in floating point. -/
structure Platform where
  now : Nat
  toISOString : Nat → String
  percent : Nat → Nat → Nat

section

variable (platform : Platform)

def zeroAggregation : ClaimAggregation where
  quorumProgressPct := 0
  votesNeeded := 1
  deadlineEstimateUtc := platform.toISOString platform.now
  requiredVotes := 1
  currentVotes := 0
  eligibleVoterSource := "unknown"

/-- The votes that the backend requires of so many eligible voters. -/
def requiredVotes (eligible : Nat) : Nat := max 1 (eligible / 2 + 1)

/-- `compute`. -/
def compute (db : Db) (claimId lastLedger : Nat) (eligibleVoterCount : Option Nat) :
    ClaimAggregation :=
  match db.claims.find? fun r => r.id = claimId with
  | none => zeroAggregation platform
  | some claim =>
    let totalVotes := claim.approveVotes + claim.rejectVotes
    let effectiveEligibleVoters := eligibleVoterCount.getD totalVotes
    let eligibleVoterSource :=
      if eligibleVoterCount.isSome then "contract_eligible_voters" else "fallback_total_votes_cast"
    let required := requiredVotes effectiveEligibleVoters
    let quorumProgressPct := if 0 < required then min 100 (platform.percent totalVotes required)
      else 0
    let votesNeeded := required - totalVotes
    let deadlineLedger := claim.createdAtLedger + VOTE_WINDOW_LEDGERS
    let remainingSeconds := (deadlineLedger - lastLedger) * SECONDS_PER_LEDGER
    { quorumProgressPct
      votesNeeded
      deadlineEstimateUtc := platform.toISOString (platform.now + remainingSeconds * 1000)
      requiredVotes := required
      currentVotes := totalVotes
      eligibleVoterSource }

end

/-! ## What the contract does -/

/-- The contract resolves a claim with these tallies after these further ballots, each of weight
one. -/
def ResolvesAfter (approve reject eligible quorumBps : Nat) (further : List VoteOption) : Prop :=
  (resolvePluralityIfQuorumMet (approve + further.count .approve) (reject + further.count .reject)
    (approve + further.count .approve + (reject + further.count .reject)) eligible
    quorumBps).isSome =
      true

section

variable {approve reject eligible quorumBps : Nat}

theorem count_votes (further : List VoteOption) :
    further.count .approve + further.count .reject = further.length := by
  induction further with
  | nil => rfl
  | cons vote further ih =>
    cases vote with
    | approve =>
      rw [List.count_cons_self, List.count_cons_of_ne (by decide), List.length_cons]
      omega
    | reject =>
      rw [List.count_cons_self, List.count_cons_of_ne (by decide), List.length_cons]
      omega

/-- **The claim is resolved when so many ballots are cast as the quorum takes**, whatever they are
for. -/
theorem resolvesAfter_iff {further : List VoteOption} :
    ResolvesAfter approve reject eligible quorumBps further ↔
      requiredCastForQuorum eligible quorumBps ≤ approve + reject + further.length := by
  have hcast : approve + further.count .approve + (reject + further.count .reject) =
      approve + reject + further.length := by
    rw [← count_votes further]
    omega
  unfold ResolvesAfter resolvePluralityIfQuorumMet participationQuorumMet
  rw [hcast]
  by_cases hmet : requiredCastForQuorum eligible quorumBps ≤ approve + reject + further.length
  · simp only [decide_eq_true hmet, if_true]
    refine iff_of_true ?_ hmet
    split
    · rfl
    · rfl
  · simp [hmet]

theorem ballotOutcome_isSome_iff (s : State) (claimId : Nat) {claim : Claim} (vote : VoteOption)
    (happrove : claim.approveVotes < U32_MAX) (hreject : claim.rejectVotes < U32_MAX) :
    (s.ballotOutcome claimId (claim.tally vote 1)).isSome = true ↔
      ResolvesAfter claim.approveVotes claim.rejectVotes claim.eligibleVoterCount
        (s.effectiveQuorumBps claimId) [vote] := by
  unfold State.ballotOutcome ResolvesAfter
  cases vote with
  | approve =>
    have hone : saturatingAdd32 claim.approveVotes 1 = claim.approveVotes + 1 :=
      Nat.min_eq_left happrove
    simp [Claim.tally, hone]
  | reject =>
    have hone : saturatingAdd32 claim.rejectVotes 1 = claim.rejectVotes + 1 :=
      Nat.min_eq_left hreject
    simp [Claim.tally, hone]

end

/-! ## Parity -/

/-- The quorum is reported as reached exactly if the contract has it, and the claim is resolved
after further ballots exactly if these are as many as are reported to be missing. -/
def QuorumParity (aggregation : ClaimAggregation)
    (approve reject eligible quorumBps : Nat) : Prop :=
  (aggregation.votesNeeded = 0 ↔
    participationQuorumMet (approve + reject) eligible quorumBps = true) ∧
  ∀ further, ResolvesAfter approve reject eligible quorumBps further ↔
    aggregation.votesNeeded ≤ further.length

/-- Both have enough votes, or the simple majority is the rounded-up share. -/
def QuorumAgrees (counted approve reject eligible quorumBps : Nat) : Prop :=
  counted / 2 + 1 ≤ approve + reject ∧ eligible * quorumBps ≤ 10000 * (approve + reject) ∨
    10000 * (counted / 2) < eligible * quorumBps ∧
      eligible * quorumBps ≤ 10000 * (counted / 2 + 1)

section

variable {platform : Platform} {db : Db} {claimId lastLedger : Nat} {claim : ClaimRow}
  {eligibleVoterCount : Option Nat} {eligible quorumBps : Nat}

theorem requiredVotes_eq (n : Nat) : requiredVotes n = n / 2 + 1 :=
  Nat.max_eq_right (Nat.le_add_left 1 _)

theorem votesNeeded_compute (h : db.claims.find? (fun r => r.id = claimId) = some claim) :
    (compute platform db claimId lastLedger eligibleVoterCount).votesNeeded =
      eligibleVoterCount.getD (claim.approveVotes + claim.rejectVotes) / 2 + 1 -
        (claim.approveVotes + claim.rejectVotes) := by
  unfold compute
  rw [h]
  dsimp only
  rw [requiredVotes_eq]

/-- **When the backend counts the missing votes as the contract does**: the number of eligible
voters that it is given, or without one the votes that are cast, decide about it with the
tallies. -/
theorem quorum_parity_iff (h : db.claims.find? (fun r => r.id = claimId) = some claim)
    (hE : eligible ≤ U32_MAX) (hQ : quorumBps ≤ 10000) :
    QuorumParity (compute platform db claimId lastLedger eligibleVoterCount) claim.approveVotes
        claim.rejectVotes eligible quorumBps ↔
      QuorumAgrees (eligibleVoterCount.getD (claim.approveVotes + claim.rejectVotes))
        claim.approveVotes claim.rejectVotes eligible quorumBps := by
  have hle : ∀ n, requiredCastForQuorum eligible quorumBps ≤ n ↔ eligible * quorumBps ≤ 10000 * n :=
    fun n => requiredCastForQuorum_le_iff hE hQ
  unfold QuorumParity QuorumAgrees
  rw [votesNeeded_compute h, ← hle, ← hle, ← Nat.not_le, ← hle]
  simp only [resolvesAfter_iff, participationQuorumMet, decide_eq_true_eq]
  generalize claim.approveVotes + claim.rejectVotes = cast
  generalize eligibleVoterCount.getD cast / 2 = half
  generalize requiredCastForQuorum eligible quorumBps = required
  constructor
  · rintro ⟨-, hafter⟩
    -- so many ballots as are missing on the one side are enough on the other
    have hbackend := (hafter (List.replicate (half + 1 - cast) .approve)).mpr
    have hcontract := (hafter (List.replicate (required - cast) .approve)).mp
    rw [List.length_replicate] at hbackend hcontract
    have hle₁ := hbackend (Nat.le_refl _)
    have hle₂ := hcontract (by omega)
    omega
  · intro hagrees
    refine ⟨by omega, fun further => ?_⟩
    omega

end

/-! ## Four voters and five -/

/-- A claim with one vote for it and one against it. -/
def tiedClaim : ClaimRow where
  id := 1
  policyId := "G1:1"
  creatorAddress := "G1"
  amount := "1000"
  asset := none
  description := ""
  imageUrls := []
  status := .pending
  isFinalized := false
  approveVotes := 1
  rejectVotes := 1
  createdAtLedger := 1000
  updatedAtLedger := 1000
  txHash := "aa"
  deletedAt := none
  appealsCount := 0
  appealTxHash := none
  paidAt := none

/-- A clock that stands still, with percentages that are rounded down. -/
def demoPlatform : Platform := ⟨0, fun n => toString n, fun a b => a * 100 / b⟩

/-- With five eligible voters and half of them for the quorum, both miss one vote. -/
theorem quorum_parity_of_five :
    (compute demoPlatform ⟨[tiedClaim], []⟩ 1 1000 (some 5)).votesNeeded = 1 ∧
      QuorumParity (compute demoPlatform ⟨[tiedClaim], []⟩ 1 1000 (some 5)) 1 1 5 5000 := by
  have hrow : (Db.mk [tiedClaim] []).claims.find? (fun r => r.id = 1) = some tiedClaim := rfl
  have hE : 5 ≤ U32_MAX := by decide
  have hQ : 5000 ≤ 10000 := by decide
  exact ⟨by decide, (quorum_parity_iff hrow hE hQ).mpr (.inr (by decide))⟩

/-- With four, the contract has its quorum of two, and the backend misses one more. -/
theorem quorum_disparity_of_four :
    (compute demoPlatform ⟨[tiedClaim], []⟩ 1 1000 (some 4)).votesNeeded = 1 ∧
      participationQuorumMet 2 4 5000 = true ∧
      ¬ QuorumParity (compute demoPlatform ⟨[tiedClaim], []⟩ 1 1000 (some 4)) 1 1 4 5000 := by
  refine ⟨by decide, by decide, fun h => ?_⟩
  exact absurd (h.1.mpr (by decide)) (by decide)

end NiffyInsure.Backend.QuorumProgress
