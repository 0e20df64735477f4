import NiffyInsure.Lib.Table

/-!
# The tables of the backend

The rows of `schema.prisma` that the handlers of `indexer.service.ts` and the reconciler read and
write.  A transaction of Prisma is a function on the whole database; where it throws, and so is
rolled back, there is no result.
-/

namespace NiffyInsure.Backend

open Table

inductive ClaimStatus where
  | pending
  | approved
  | paid
  | rejected
  | underAppeal
  | appealApproved
  | appealRejected
  deriving DecidableEq

inductive VoteType where
  | approve
  | reject
  deriving DecidableEq

structure ClaimRow where
  id : Nat
  policyId : String
  creatorAddress : String
  amount : String
  asset : Option String
  description : String
  imageUrls : List String
  status : ClaimStatus
  isFinalized : Bool
  approveVotes : Nat
  rejectVotes : Nat
  createdAtLedger : Nat
  updatedAtLedger : Nat
  txHash : String
  deletedAt : Option Nat
  appealsCount : Nat
  appealTxHash : Option String
  paidAt : Option String
  deriving DecidableEq

structure VoteRow where
  claimId : Nat
  voterAddress : String
  vote : VoteType
  votedAtLedger : Nat
  txHash : String
  deriving DecidableEq

structure PolicyRow where
  id : String
  policyId : Nat
  holderAddress : String
  policyType : String
  region : String
  coverageAmount : String
  premium : String
  isActive : Bool
  startLedger : Nat
  endLedger : Nat
  assetContractId : Option String
  txHash : String
  deriving DecidableEq

structure AppealVoterSnapshotRow where
  claimId : Nat
  walletAddress : String
  appealsCount : Nat
  deriving DecidableEq

structure AllowedAssetRow where
  contractId : String
  symbol : Option String
  decimals : Nat
  isAllowed : Bool
  addedAtLedger : Nat
  deriving DecidableEq

/-- The claims and their votes. -/
structure Db where
  claims : List ClaimRow
  votes : List VoteRow

/-- All tables that the event handlers use. -/
structure Tables extends Db where
  policies : List PolicyRow
  registeredVoters : List String
  appealVoterSnapshots : List AppealVoterSnapshotRow
  allowedAssets : List AllowedAssetRow

/-- A vote as `handleVoteCast` reads it off its event. -/
structure VoteCast where
  claimId : Nat
  voter : String
  vote : VoteType
  approveVotes : Nat
  rejectVotes : Nat
  ledger : Nat
  txHash : String

namespace Db

/-- `vote.count`. -/
def countVotes (db : Db) (claimId : Nat) (vote : VoteType) : Nat :=
  db.votes.countP fun r => r.claimId = claimId ∧ r.vote = vote

/-- The writes of `handleVoteCast`: the vote is upserted by its claim and voter, and the claim
takes over the tallies of the event.  Both throw when there is no such claim. -/
def castVote (db : Db) (e : VoteCast) : Option Db :=
  if db.claims.any (·.id = e.claimId) then
    some { db with
      votes := upsert (fun r => r.claimId = e.claimId ∧ r.voterAddress = e.voter)
        ⟨e.claimId, e.voter, e.vote, e.ledger, e.txHash⟩
        (fun r => { r with vote := e.vote }) db.votes
      claims := updateWhere (·.id = e.claimId)
        (fun r => { r with approveVotes := e.approveVotes, rejectVotes := e.rejectVotes })
        db.claims }
  else none

end Db

end NiffyInsure.Backend
