import NiffyInsure.State
import NiffyInsure.Backend.Database

/-!
# From the contract's events to the rows of the indexer

On one side the topics and the data that the events of the contract have (`#[contractevent]`); on
the other the versioned parser (`parser-registry.ts`), its table of event keys (`events.schema.ts`),
and the routing and the handlers of `processEventForNetwork` (`indexer.service.ts`).  In between
`scValToNative` of the Stellar SDK turns the values into those of JavaScript.

Metrics, caches, streams and webhooks of the handlers are left out.
-/

namespace NiffyInsure.Backend

open Table

/-! ## Values -/

/-- What `scValToNative` gives for the values in the events: `u32` is a number, the wider integers
are bigints, symbols and addresses are texts, and a variant without a number is a list of its
name. -/
inductive Native where
  | undefined
  | null
  | str (s : String)
  | num (n : Int)
  | big (n : Int)
  | list (items : List String)
  deriving DecidableEq

abbrev Payload := List (String × Native)

def Payload.get (data : Payload) (field : String) : Native := (data.lookup field).getD .undefined

/-- `String(value)`. -/
def Native.toText : Native → String
  | .undefined => "undefined"
  | .null => "null"
  | .str s => s
  | .num n | .big n => toString n
  | .list items => ",".intercalate items

def getStringValue : Native → String
  | .undefined | .null => ""
  | v => v.toText

/-- `Number(text)` for the texts of integers and the empty one; `none` is `NaN`.  Integers above
2^53, which lose digits, no column takes. -/
def numberOfText (s : String) : Option Int := if s = "" then some 0 else s.toInt?

def getNumberValue : Native → Option Int
  | .num n | .big n => some n
  | v => numberOfText (getStringValue v)

def getStringArray : Native → List String
  | .list items => items
  | _ => []

/-- A number in a template literal. -/
def numberText (n : Option Int) : String := n.elim "NaN" toString

def INT4_MAX : Nat := 2147483647

/-- What a column of the type `Int` takes; anything else throws.  No event has a negative number. -/
def int4 (n : Option Int) : Option Nat :=
  n.bind fun n => if 0 ≤ n ∧ n ≤ INT4_MAX then some n.toNat else none

/-- `text.toLowerCase().replace(/_/g, '')`, which is compared with ASCII words only. -/
def normalizedWord (s : String) : List Char := (s.toList.map Char.toLower).filter (· ≠ '_')

inductive AppealOutcome where
  | approved
  | rejected
  deriving DecidableEq

def AppealOutcome.status : AppealOutcome → ClaimStatus
  | .approved => .appealApproved
  | .rejected => .appealRejected

/-- `mapAppealOutcome`. -/
def mapAppealOutcome (outcome : Native) (allowBareApprovedRejected : Bool) : Option AppealOutcome :=
  let normalized := normalizedWord (getStringValue outcome)
  if normalized = "appealapproved".toList then some .approved
  else if normalized = "appealrejected".toList then some .rejected
  else if allowBareApprovedRejected ∧ normalized = "approved".toList then some .approved
  else if allowBareApprovedRejected ∧ normalized = "rejected".toList then some .rejected
  else none

/-- An event as the RPC gives it, with topics and data already native. -/
structure SorobanEvent where
  topics : List Native
  data : Payload
  contractId : String
  ledger : Nat
  ledgerClosedAt : String
  txHash : String

/-- `topics[i]`. -/
def SorobanEvent.topic (event : SorobanEvent) (i : Nat) : Native := event.topics.getD i .undefined

/-- `resolveClaimId`. -/
def SorobanEvent.resolveClaimId (event : SorobanEvent) : Option Int :=
  let field := event.data.get "claim_id"
  if field ≠ .undefined ∧ field ≠ .null ∧ field ≠ .str "" then getNumberValue field
  else if event.topic 2 ≠ .undefined ∧ event.topic 2 ≠ .null then getNumberValue (event.topic 2)
  else none

/-! ## The parser registry -/

def SCHEMA_VERSION : Int := 1

/-- The keys of `EVENT_PARSERS`.  Each has a parser for version 1, which returns the payload. -/
def EVENT_PARSERS : List String :=
  ["niffyins:clm_filed", "niffyins:vote_cast", "niffyins:clm_final", "niffyins:clm_paid",
    "niffyins:claim_status_changed", "niffyinsure:appeal_opened", "niffyinsure:appeal_resolved",
    "niffyinsure:claim_withdrawn", "niffyinsure:PolicyInitiated", "niffyinsure:PolicyRenewed",
    "niffyinsure:policy_terminated", "niffyinsure:policy_expired", "niffyinsure:BeneficiaryUpdated",
    "niffyinsure:quorum_updated", "niffyinsure:GracePeriodUpdated",
    "niffyinsure:payout_asset_override_applied", "niffyinsure:asset_premium_table_set",
    "niffyinsure:installment_disbursed", "niffyinsure:claim_fully_paid",
    "niffyinsure:policy_transferred", "niffyinsure:claim_evidence_updated",
    "niffyinsure:payout_recipient_warning", "niffyins:tbl_upd", "niffyins:asset_set",
    "niffyins:adm_prop", "niffyins:adm_acc", "niffyins:adm_can", "niffyins:adm_tok",
    "niffyins:adm_paus", "niffyins:adm_drn"]

/-- A range of ledgers in which a contract has a schema version. -/
structure DeploymentEntry where
  contractId : String
  schemaVersion : Nat
  fromLedger : Nat
  toLedger : Option Nat

/-- The reason of a warning row; there is none for an event that parses. -/
abbrev Parser := List Native → Payload → Option String

/-- `EventParserV1`. -/
def EventParserV1 : Parser := fun topics data =>
  match topics with
  | ns :: name :: _ =>
    let key := ns.toText ++ ":" ++ name.toText
    if key ∉ EVENT_PARSERS then some "unknown_event_key"
    else
      let version : Int := match data.get "version" with
        | .num n => n
        | _ => SCHEMA_VERSION
      if version ≠ 1 then some ("no_parser_for_version_" ++ toString version) else none
  | _ => some "topics_too_short"

/-- `EventParserV2`, which delegates. -/
def EventParserV2 : Parser := EventParserV1

def PARSER_IMPLEMENTATIONS (version : Nat) : Option Parser :=
  match version with
  | 1 => some EventParserV1
  | 2 => some EventParserV2
  | _ => none

/-- `selectParser`: the first entry that applies and has a parser. -/
def selectParser (registry : List DeploymentEntry) (contractId : String) (ledger : Nat) : Parser :=
  (registry.findSome? fun entry =>
    if entry.contractId = contractId ∧ entry.fromLedger ≤ ledger ∧
        entry.toLedger.all (fun last => ledger < last) = true then
      PARSER_IMPLEMENTATIONS entry.schemaVersion
    else none).getD EventParserV1

/-! ## Routing -/

inductive Handler where
  | policyInitiated
  | policyRenewed
  | claimFiled
  | voteCast
  | claimProcessed
  | premiumTableUpdated
  | assetAdded
  | assetRemoved
  | allowedAssetUpdated
  | appealOpened
  | appealResolved (outcome : AppealOutcome)
  | appealClaimStatusChanged
  deriving DecidableEq

/-- The handler for an event, by its first two topics. -/
def SorobanEvent.route (event : SorobanEvent) : Option Handler :=
  let main := (event.topic 0).toText
  let sub := (event.topic 1).toText
  if main = "PolicyInitiated" ∨ (main = "policy" ∧ sub = "initiated") then some .policyInitiated
  else if main = "policy" ∧ sub = "renewed" then some .policyRenewed
  else if (main = "claim" ∧ sub = "filed") ∨ (main = "niffyinsure" ∧ sub = "claim_filed") then
    some .claimFiled
  else if main = "vote" then some .voteCast
  else if main = "claim_pd" ∨ (main = "niffyinsure" ∧ sub = "claim_paid") then some .claimProcessed
  else if main = "niffyins" ∧ sub = "tbl_upd" then some .premiumTableUpdated
  else if main = "asset" ∧ sub = "added" then some .assetAdded
  else if main = "asset" ∧ sub = "removed" then some .assetRemoved
  else if main = "niffyinsure" ∧ sub = "allowed_asset_updated" then some .allowedAssetUpdated
  else if (main = "appeal" ∧ sub = "filed") ∨ (main = "niffyinsure" ∧ sub = "appeal_filed") ∨
      (main = "niffyinsure" ∧ sub = "appeal_opened") then some .appealOpened
  else if (main = "appeal" ∧ sub = "approved") ∨
      (main = "niffyinsure" ∧ sub = "appeal_approved") then
    some (.appealResolved .approved)
  else if (main = "appeal" ∧ sub = "rejected") ∨
      (main = "niffyinsure" ∧ sub = "appeal_rejected") then
    some (.appealResolved .rejected)
  else if main = "niffyinsure" ∧ sub = "appeal_resolved" then
    -- an outcome that is not known is only logged
    (mapAppealOutcome (event.data.get "outcome") true).map .appealResolved
  else if main = "niffyins" ∧ sub = "claim_status_changed" then some .appealClaimStatusChanged
  else none

/-! ## Handlers -/

section

variable (normalize : String → Option String) (t : Tables) (event : SorobanEvent)

/-- `tryNormalizeAddress(text) ?? text`; the addresses are the SDK's. -/
def normalizedAddress (v : Native) : String :=
  (normalize (getStringValue v)).getD (getStringValue v)

/-- `value != null && value !== '' ? getStringValue(value) : null`. -/
def optionalText (v : Native) : Option String :=
  if v ≠ .undefined ∧ v ≠ .null ∧ v ≠ .str "" then some (getStringValue v) else none

def handlePolicyInitiated : Option Tables := do
  let data := event.data
  let holder := normalizedAddress normalize (data.get "holder")
  let policyId ← int4 (getNumberValue (data.get "policy_id"))
  let startLedger ← int4 (getNumberValue (data.get "start_ledger"))
  let endLedger ← int4 (getNumberValue (data.get "end_ledger"))
  let id := holder ++ ":" ++ toString policyId
  let assetContractId := optionalText (data.get "asset")
  pure { t with
    policies := upsert (·.id = id)
      { id, policyId, startLedger, endLedger, assetContractId
        holderAddress := holder
        policyType := getStringValue (data.get "policy_type")
        region := getStringValue (data.get "region")
        coverageAmount := getStringValue (data.get "coverage")
        premium := getStringValue (data.get "premium")
        isActive := true
        txHash := event.txHash }
      (fun r => { r with
        isActive := true
        endLedger := endLedger
        assetContractId := assetContractId.orElse fun _ => r.assetContractId })
      t.policies }

def handlePolicyRenewed : Option Tables := do
  let data := event.data
  let id := normalizedAddress normalize (data.get "holder") ++ ":" ++
    numberText (getNumberValue (data.get "policy_id"))
  let endLedger ← int4 (getNumberValue (data.get "new_end_ledger"))
  if t.policies.any (·.id = id) then
    pure { t with
      policies := updateWhere (·.id = id) (fun r => { r with endLedger := endLedger }) t.policies }
  else none

/-- A new claim needs its policy, to which it refers. -/
def handleClaimFiled : Option Tables := do
  let data := event.data
  let claimId ← int4 (getNumberValue (data.get "claim_id"))
  let claimant := getStringValue (data.get "claimant")
  let policyDbId := claimant ++ ":" ++ numberText (getNumberValue (data.get "policy_id"))
  let amount := getStringValue (data.get "amount")
  let description := getStringValue (data.get "details")
  let imageUrls := getStringArray (data.get "image_urls")
  if t.claims.any (·.id = claimId) ∨ t.policies.any (·.id = policyDbId) then
    pure { t with
      claims := upsert (·.id = claimId)
        { id := claimId
          policyId := policyDbId
          creatorAddress := claimant
          asset := optionalText (data.get "asset")
          amount, description, imageUrls
          status := .pending
          isFinalized := false
          approveVotes := 0
          rejectVotes := 0
          createdAtLedger := event.ledger
          updatedAtLedger := event.ledger
          txHash := event.txHash
          deletedAt := none
          appealsCount := 0
          appealTxHash := none
          paidAt := none }
        (fun r => { r with amount, description, imageUrls })
        t.claims }
  else none

/-- An event without a voter is skipped. -/
def handleVoteCast : Option Tables := do
  let data := event.data
  let voter := getStringValue (event.topic 2)
  let vote := data.get "vote"
  let option := if vote = .undefined ∨ vote = .null then "[object Object]" else getStringValue vote
  if voter = "" then pure t
  else
    let claimId ← int4 (getNumberValue (event.topic 1))
    let approveVotes ← int4 (getNumberValue (data.get "approve_votes"))
    let rejectVotes ← int4 (getNumberValue (data.get "reject_votes"))
    let db ← t.toDb.castVote
      { claimId, voter, approveVotes, rejectVotes
        vote := if option = "Approve" then .approve else .reject
        ledger := event.ledger
        txHash := event.txHash }
    pure { t with toDb := db }

/-- `claim.updateMany` of the rows with this id that are not deleted. -/
def updateLiveClaims (claimId : Nat) (f : ClaimRow → ClaimRow) : Tables :=
  { t with claims := updateWhere (fun r => r.id = claimId ∧ r.deletedAt = none) f t.claims }

def handleClaimProcessed : Option Tables := do
  let claimId ← int4 (getNumberValue (event.data.get "claim_id"))
  pure (updateLiveClaims t claimId fun r => { r with
    status := .paid
    paidAt := some event.ledgerClosedAt
    updatedAtLedger := event.ledger })

def handleAssetAdded : Option Tables := do
  let data := event.data
  let contractId := getStringValue (data.get "contract_id")
  let symbol := data.get "symbol"
  let symbol := if symbol = .undefined ∨ symbol = .null then none else some (getStringValue symbol)
  let decimals := data.get "decimals"
  let decimals ← if decimals = .undefined ∨ decimals = .null then some 7
    else int4 (getNumberValue decimals)
  pure { t with
    allowedAssets := upsert (·.contractId = contractId)
      ⟨contractId, symbol, decimals, true, event.ledger⟩
      (fun r => { r with isAllowed := true, symbol := symbol, decimals := decimals })
      t.allowedAssets }

def handleAssetRemoved : Option Tables :=
  let contractId := getStringValue (event.data.get "contract_id")
  if t.allowedAssets.any (·.contractId = contractId) then
    some { t with
      allowedAssets := updateWhere (·.contractId = contractId)
        (fun r => { r with isAllowed := false }) t.allowedAssets }
  else none

/-- The snapshot of the voters, unless there is one for this round. -/
def mirrorAppealVoters (claimId appealsCount : Nat) : Tables :=
  if t.appealVoterSnapshots.any fun r => r.claimId = claimId ∧ r.appealsCount = appealsCount then t
  else { t with
    appealVoterSnapshots := t.appealVoterSnapshots ++
      t.registeredVoters.map fun walletAddress => { claimId, walletAddress, appealsCount } }

/-- An event without a claim id, or for a claim that has no live row, is skipped.  The function
declares `existing` twice; the second, which is read for the next count only, is taken as a name
of its own. -/
def handleAppealOpened : Option Tables :=
  match event.resolveClaimId with
  | none => some t
  | some n => do
    let claimId ← int4 (some n)
    match t.claims.find? fun r => r.id = claimId ∧ r.deletedAt = none with
    | none => pure t
    | some existing =>
      let alreadyCounted : Bool := existing.status = .underAppeal ∧ 0 < existing.appealsCount
      let existing₂ := t.claims.find? (·.id = claimId)
      let nextAppealsCount := max (existing₂.elim 0 ClaimRow.appealsCount) 1
      let t₁ := updateLiveClaims t claimId fun r => { r with
        status := .underAppeal
        updatedAtLedger := event.ledger
        appealsCount := if alreadyCounted then r.appealsCount else r.appealsCount + 1 }
      pure (mirrorAppealVoters t₁ claimId nextAppealsCount)

/-- A name that is declared nowhere is read: what the transaction has written is rolled back. -/
def referenceError (_written : Tables) : Option Tables := none

/-- After the rows are updated, `alreadyTerminal` is read. -/
def handleAppealResolved (outcome : AppealOutcome) : Option Tables := do
  let claimId ← int4 (getNumberValue (event.data.get "claim_id"))
  referenceError (updateLiveClaims t claimId fun r => { r with
    status := outcome.status
    isFinalized := true
    updatedAtLedger := event.ledger })

def handleAppealClaimStatusChanged : Option Tables :=
  let newStatus := event.data.get "new_status"
  if normalizedWord (getStringValue newStatus) = "underappeal".toList
    then handleAppealOpened t event
  else match mapAppealOutcome newStatus false with
    | some outcome => handleAppealResolved t event outcome
    | none => some t

def handle : Handler → Option Tables
  | .policyInitiated => handlePolicyInitiated normalize t event
  | .policyRenewed => handlePolicyRenewed normalize t event
  | .claimFiled => handleClaimFiled t event
  | .voteCast => handleVoteCast t event
  | .claimProcessed => handleClaimProcessed t event
  | .assetAdded => handleAssetAdded t event
  | .assetRemoved => handleAssetRemoved t event
  | .appealOpened => handleAppealOpened t event
  | .appealResolved outcome => handleAppealResolved t event outcome
  | .appealClaimStatusChanged => handleAppealClaimStatusChanged t event
  -- caches only
  | .premiumTableUpdated | .allowedAssetUpdated => some t

end

/-- What becomes of an event that was not seen before. -/
inductive Handling where
  | warning (reason : String)
  | unrouted
  | routed (handler : Handler)
  deriving DecidableEq

/-- `processEventForNetwork` of an event that was not seen before. -/
def processNewEvent (normalize : String → Option String) (registry : List DeploymentEntry)
    (t : Tables) (event : SorobanEvent) : Option (Handling × Tables) :=
  match selectParser registry event.contractId event.ledger event.topics event.data with
  | some reason => some (.warning reason, t)
  | none =>
    match event.route with
    | none => some (.unrouted, t)
    | some handler => (handle normalize t event handler).map fun t' => (.routed handler, t')

end NiffyInsure.Backend
