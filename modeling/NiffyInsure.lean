import NiffyInsure.Delegation
import NiffyInsure.OpenSlot
import NiffyInsure.Payout
import NiffyInsure.Ballots
import NiffyInsure.VoteOrder
import NiffyInsure.Transfer
import NiffyInsure.Overlap
import NiffyInsure.Registry
import NiffyInsure.Reserve
import NiffyInsure.Solvency
import NiffyInsure.Proposals
import NiffyInsure.AdminActions
import NiffyInsure.Pause
import NiffyInsure.Provenance
import NiffyInsure.Obligations
import NiffyInsure.StatusIndex
import NiffyInsure.RollingCap
import NiffyInsure.RegistryRun
import NiffyInsure.AdminRotation
import NiffyInsure.SweepLimit
import NiffyInsure.Nonce
import NiffyInsure.Lib.BoundedLog
import NiffyInsure.StatusHistory
import NiffyInsure.EventLog
import NiffyInsure.Strikes
import NiffyInsure.DisputeWindow
import NiffyInsure.VotingRules
import NiffyInsure.RateLimit
import NiffyInsure.QuorumThreshold
import NiffyInsure.Quorum
import NiffyInsure.Electorate
import NiffyInsure.PayoutPaths
import NiffyInsure.ClaimVoting.Contract
import NiffyInsure.ClaimVoting.Delegations
import NiffyInsure.Evidence
import NiffyInsure.ClaimVoting.BallotCount
import NiffyInsure.Lib.JsString
import NiffyInsure.Frontend.Commitment
import NiffyInsure.Lib.Table
import NiffyInsure.Backend.Database
import NiffyInsure.Backend.Reconciliation
import NiffyInsure.Backend.Indexer
import NiffyInsure.Backend.ExactlyOnce
import NiffyInsure.Backend.Events
import NiffyInsure.Backend.Decoding
import NiffyInsure.Pricing
import NiffyInsure.PriceVersions
import NiffyInsure.Expiry
import NiffyInsure.LapseGuard
import NiffyInsure.Lib.ProRata
import NiffyInsure.Refund
import NiffyInsure.ClaimVoting.Override
import NiffyInsure.Lib.Concurrent
import NiffyInsure.Lib.AnchoredWindow
import NiffyInsure.Backend.RateLimiter
import NiffyInsure.Lib.CheckThenAct
import NiffyInsure.Backend.Appeals
import NiffyInsure.Backend.Notifications
import NiffyInsure.Lib.Expiring
import NiffyInsure.Backend.RefreshTokens
import NiffyInsure.Lib.ScVal
import NiffyInsure.Backend.CallArgs
import NiffyInsure.Backend.Ramp
import NiffyInsure.Backend.Challenges
import NiffyInsure.Backend.Submissions
import NiffyInsure.Lib.Custody
import NiffyInsure.Backend.Digests
import NiffyInsure.Backend.PendingSubmissions
import NiffyInsure.Lib.ReplayCache
import NiffyInsure.Backend.Idempotency
import NiffyInsure.Lib.RetryQueue
import NiffyInsure.Backend.Webhooks
import NiffyInsure.Backend.Quotes
import NiffyInsure.Lib.Feed
import NiffyInsure.Backend.EventStream
import NiffyInsure.Backend.ExpiryKeeper
import NiffyInsure.Lib.Staged
import NiffyInsure.PremiumFormula
import NiffyInsure.Calculator
import NiffyInsure.Backend.PremiumEngine
import NiffyInsure.SolvencyRatio
import NiffyInsure.Charges
import NiffyInsure.Lib.PartialShuffle
import NiffyInsure.Sampling
import NiffyInsure.Lib.Sweep
import NiffyInsure.BatchKeeper
import NiffyInsure.VoterCap
import NiffyInsure.Backend.SingleFlight
import NiffyInsure.ProrataRefund
import NiffyInsure.AssetBook
import NiffyInsure.Lib.Paging
import NiffyInsure.Listings
import NiffyInsure.Lib.Rollback
import NiffyInsure.Subscriptions
import NiffyInsure.Backend.CatchUp
import NiffyInsure.Backend.Renewal
import NiffyInsure.Backend.QuorumProgress
import NiffyInsure.Backend.Keyset
import NiffyInsure.Lib.StableSort
import NiffyInsure.Backend.ClaimHistory
import NiffyInsure.Backend.ClaimTimeline
import NiffyInsure.Lib.JsParts
import NiffyInsure.Backend.Ssrf
import NiffyInsure.Lib.SlidingWindow
import NiffyInsure.Lib.ScoreSet
import NiffyInsure.Backend.WalletLimit
import NiffyInsure.Backend.HorizonLimit
import NiffyInsure.Lib.JsValue
import NiffyInsure.Backend.Anonymization
import NiffyInsure.Lib.Marked
import NiffyInsure.Backend.Pseudonyms
import NiffyInsure.Backend.WebhookKeys
import NiffyInsure.Backend.Keepers
import NiffyInsure.Lib.Query
import NiffyInsure.Backend.TenantFilter
import NiffyInsure.Backend.SolvencyMonitor
import NiffyInsure.Backend.StreamRegistry
import NiffyInsure.Lib.Cyclic
import NiffyInsure.Backend.QuietHours
import NiffyInsure.Lib.JsNumber
import NiffyInsure.Lib.Joined
import NiffyInsure.Backend.CacheKeys
import NiffyInsure.Backend.CacheInvalidation
import NiffyInsure.Backend.Signatures
import NiffyInsure.Frontend.Optimistic
import NiffyInsure.Frontend.ApiErrors
import NiffyInsure.Frontend.ApiClient
import NiffyInsure.Lib.Transfers
import NiffyInsure.TokenFlow
import NiffyInsure.Authority
import NiffyInsure.Lib.WriteOnce
import NiffyInsure.SecretBallots
import NiffyInsure.SettingBounds
import NiffyInsure.FiniteLife
import NiffyInsure.ClaimRegister
