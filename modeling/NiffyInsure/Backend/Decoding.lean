import NiffyInsure.Backend.Events

/-!
# Which events of the contract reach their rows

The table of event keys, the routing and the fields that the handlers read were each written for
another layout than the contract's:

* `policy_initiated` and `policy_renewed` have the holder as second topic, which is part of the key
  that is looked up;
* `claim_filed`, `vote_revealed` and `appeal_vote_cast` are not in the table;
* `vote_cast` is, but goes to no handler, and is not emitted;
* `appeal_resolved` has its outcome as a number, and the handler compares names.

`mirrored_iff`: of all these, only an opened appeal gets to its row.
-/

namespace NiffyInsure.Backend

open Table

/-! ## The events of the contract -/

/-- An event that an entrypoint emits, or the vote event for which only the function exists. -/
inductive ContractEvent where
  | emitted (e : Event)
  /-- `VoteCastData`: `emit_vote_cast` is called nowhere. -/
  | voteCast (claimId : Nat) (voter : Address) (vote : VoteOption)
      (approveVotes rejectVotes atLedger : Nat)

/-- `EVENT_SCHEMA_VERSION` and `POLICY_EVENT_VERSION`. -/
def EVENT_SCHEMA_VERSION : Native := .num 1

def PolicyType.native : PolicyType → Native
  | .auto => .list ["Auto"]
  | .health => .list ["Health"]
  | .property => .list ["Property"]

def RegionTier.native : RegionTier → Native
  | .low => .list ["Low"]
  | .medium => .list ["Medium"]
  | .high => .list ["High"]

def CoverageTier.native : CoverageTier → Native
  | .basic => .list ["Basic"]
  | .standard => .list ["Standard"]
  | .premium => .list ["Premium"]

def VoteOption.native : VoteOption → Native
  | .approve => .list ["Approve"]
  | .reject => .list ["Reject"]

/-- The statuses have explicit numbers, and are `u32` values on the chain. -/
def ClaimStatus.native : NiffyInsure.ClaimStatus → Native
  | .processing => .num 0
  | .pending => .num 1
  | .approved => .num 2
  | .payoutTimeout => .num 3
  | .paid => .num 4
  | .rejected => .num 5
  | .underAppeal => .num 6
  | .appealApproved => .num 7
  | .appealRejected => .num 8
  | .withdrawn => .num 9
  | .disputed => .num 10
  | .appealed => .num 11
  | .payoutFailed => .num 12

/-- Topics and data of the policy, claim and voting events that the indexer is to mirror, with the
texts of the addresses.  `#[contractevent]` without topics takes the name of the struct in snake
case.  The hashes are left out of the data: no handler reads them. -/
def ContractEvent.encode (text : Address → String) : ContractEvent → Option (List Native × Payload)
  | .emitted (.policyInitiated policyId holder premium asset policyType region coverage deductible
      startLedger endLedger _) =>
    some ([.str "policy_initiated", .str (text holder)],
      [("version", EVENT_SCHEMA_VERSION), ("policy_id", .num policyId), ("premium", .big premium),
        ("asset", .str (text asset)), ("policy_type", PolicyType.native policyType),
        ("region", RegionTier.native region), ("coverage", .big coverage),
        ("deductible", deductible.elim .null .big), ("start_ledger", .num startLedger),
        ("end_ledger", .num endLedger)])
  | .emitted (.policyRenewed holder policyId premium newEndLedger oldCoverageType newCoverageType
      oldCoverage newCoverage) =>
    some ([.str "policy_renewed", .str (text holder)],
      [("version", EVENT_SCHEMA_VERSION), ("policy_id", .num policyId), ("premium", .big premium),
        ("new_end_ledger", .num newEndLedger),
        ("old_coverage_type", CoverageTier.native oldCoverageType),
        ("new_coverage_type", CoverageTier.native newCoverageType),
        ("old_coverage", .big oldCoverage), ("new_coverage", .big newCoverage)])
  | .emitted (.claimFiled claimId holder policyId claimAmount deductible _) =>
    some ([.str "niffyinsure", .str "claim_filed", .big claimId],
      [("holder", .str (text holder)), ("policy_id", .num policyId),
        ("claim_amount", .big claimAmount), ("deductible", .big deductible)])
  | .emitted (.voteRevealed claimId voter vote approveVotes rejectVotes atLedger) =>
    some ([.str "niffyinsure", .str "vote_revealed", .big claimId, .str (text voter)],
      [("version", EVENT_SCHEMA_VERSION), ("vote", VoteOption.native vote),
        ("approve_votes", .num approveVotes), ("reject_votes", .num rejectVotes),
        ("at_ledger", .num atLedger)])
  | .emitted (.appealVoteCast claimId voter vote atLedger) =>
    some ([.str "niffyinsure", .str "appeal_vote_cast", .big claimId, .str (text voter)],
      [("vote", VoteOption.native vote), ("at_ledger", .num atLedger)])
  | .emitted (.appealOpened claimId policyId claimant appealDeadlineLedger quorumBps atLedger) =>
    some ([.str "niffyinsure", .str "appeal_opened", .big claimId],
      [("policy_id", .num policyId), ("claimant", .str (text claimant)),
        ("appeal_deadline_ledger", .num appealDeadlineLedger), ("quorum_bps", .num quorumBps),
        ("at_ledger", .num atLedger)])
  | .emitted (.appealResolved claimId policyId claimant outcome approveVotes
      rejectVotes atLedger) =>
    some ([.str "niffyinsure", .str "appeal_resolved", .big claimId],
      [("policy_id", .num policyId), ("claimant", .str (text claimant)),
        ("outcome", ClaimStatus.native outcome), ("approve_votes", .num approveVotes),
        ("reject_votes", .num rejectVotes), ("at_ledger", .num atLedger)])
  | .voteCast claimId voter vote approveVotes rejectVotes atLedger =>
    some ([.str "niffyins", .str "vote_cast", .big claimId, .str (text voter)],
      [("version", EVENT_SCHEMA_VERSION), ("vote", VoteOption.native vote),
        ("approve_votes", .num approveVotes), ("reject_votes", .num rejectVotes),
        ("at_ledger", .num atLedger)])
  | .emitted _ => none

/-! ## What a mirrored event looks like -/

section

variable (text : Address → String) (t : Tables)

/-- `holder:policy_id`. -/
def policyDbId (holder : Address) (policyId : Nat) : String :=
  text holder ++ ":" ++ toString policyId

def voteType : VoteOption → VoteType
  | .approve => .approve
  | .reject => .reject

/-- The vote has a row. -/
def VoteShown (claimId : Nat) (voter : Address) (vote : VoteOption) : Prop :=
  ∃ v ∈ t.votes, v.claimId = claimId ∧ v.voterAddress = text voter ∧ v.vote = voteType vote

/-- The claim has a row with these tallies. -/
def TalliesShown (claimId approveVotes rejectVotes : Nat) : Prop :=
  ∃ r ∈ t.claims, r.id = claimId ∧ r.approveVotes = approveVotes ∧ r.rejectVotes = rejectVotes

/-- The row that the event names has the event's values. -/
def Shown (ledger : Nat) : ContractEvent → Prop
  | .emitted (.policyInitiated policyId holder premium asset _ _ coverage _ startLedger
      endLedger _) =>
    ∃ r ∈ t.policies, r.id = policyDbId text holder policyId ∧ r.premium = toString premium ∧
      r.assetContractId = some (text asset) ∧ r.coverageAmount = toString coverage ∧
      r.startLedger = startLedger ∧ r.endLedger = endLedger ∧ r.isActive = true
  | .emitted (.policyRenewed holder policyId premium newEndLedger _ _ _ newCoverage) =>
    ∃ r ∈ t.policies, r.id = policyDbId text holder policyId ∧ r.premium = toString premium ∧
      r.coverageAmount = toString newCoverage ∧ r.endLedger = newEndLedger
  | .emitted (.claimFiled claimId holder policyId claimAmount _ _) =>
    ∃ r ∈ t.claims, r.id = claimId ∧ r.policyId = policyDbId text holder policyId ∧
      r.creatorAddress = text holder ∧ r.amount = toString claimAmount
  | .emitted (.voteRevealed claimId voter vote approveVotes rejectVotes _)
  | .voteCast claimId voter vote approveVotes rejectVotes _ =>
    VoteShown text t claimId voter vote ∧ TalliesShown t claimId approveVotes rejectVotes
  | .emitted (.appealVoteCast claimId voter vote _) => VoteShown text t claimId voter vote
  | .emitted (.appealOpened claimId _ _ _ _ _) =>
    ∃ r ∈ t.claims, r.id = claimId ∧ r.deletedAt = none ∧ r.status = .underAppeal ∧
      r.updatedAtLedger = ledger ∧ 0 < r.appealsCount
  | .emitted (.appealResolved claimId _ _ outcome _ _ _) =>
    ∃ r ∈ t.claims, r.id = claimId ∧ r.deletedAt = none ∧ r.isFinalized = true ∧
      (outcome = .appealApproved → r.status = .appealApproved) ∧
      (outcome = .appealRejected → r.status = .appealRejected)
  | .emitted _ => True

/-- The claim that an event names. -/
def ContractEvent.claim : ContractEvent → Option Nat
  | .emitted (.claimFiled claimId _ _ _ _ _) | .emitted (.voteRevealed claimId _ _ _ _ _)
  | .emitted (.appealVoteCast claimId _ _ _) | .emitted (.appealOpened claimId _ _ _ _ _)
  | .emitted (.appealResolved claimId _ _ _ _ _ _) | .voteCast claimId _ _ _ _ _ => some claimId
  | .emitted _ => none

end

/-- The event goes to a handler, which gives the row that it names its values and leaves the rows of
other claims as they are. -/
def Mirrored (text : Address → String) (normalize : String → Option String)
    (registry : List DeploymentEntry) (t : Tables) (event : SorobanEvent) (e : ContractEvent) :
    Prop :=
  ∃ handler t', processNewEvent normalize registry t event = some (.routed handler, t') ∧
    Shown text t' event.ledger e ∧ ∀ r ∈ t'.claims, r ∈ t.claims ∨ e.claim = some r.id

/-! ## Parsing and routing -/

section

variable {text : Address → String} {normalize : String → Option String}
  {registry : List DeploymentEntry} {t : Tables} {event : SorobanEvent} {e : ContractEvent}

theorem selectParser_eq (contractId : String) (ledger : Nat) :
    selectParser registry contractId ledger = EventParserV1 := by
  have hv : ∀ version p, PARSER_IMPLEMENTATIONS version = some p → p = EventParserV1 := by
    intro version p h
    unfold PARSER_IMPLEMENTATIONS at h
    split at h
    · exact (Option.some.inj h).symm
    · exact (Option.some.inj h).symm
    · cases h
  unfold selectParser
  rw [Option.getD_eq_iff]
  rcases hfound : registry.findSome? _ with - | p
  · exact .inr ⟨rfl, rfl⟩
  · obtain ⟨entry, -, hentry⟩ := List.exists_of_findSome?_eq_some hfound
    split at hentry
    · exact .inl (congrArg some (hv _ p hentry))
    · cases hentry

theorem head_of_key : ∀ key ∈ EVENT_PARSERS, key.toList.head? = some 'n' := by decide +kernel

theorem unknown_key {ns name : String} {rest : List Native}
    (htopics : event.topics = .str ns :: .str name :: rest)
    (h : ns ++ ":" ++ name ∉ EVENT_PARSERS) :
    EventParserV1 event.topics event.data ≠ none := by
  have hwarn : EventParserV1 (.str ns :: .str name :: rest) event.data = some "unknown_event_key" :=
    if_pos h
  rw [htopics, hwarn]
  exact Option.some_ne_none _

theorem encode_cases (h : e.encode text = some (event.topics, event.data)) :
    (∃ claimId policyId claimant appealDeadlineLedger quorumBps atLedger,
      e = .emitted (.appealOpened claimId policyId claimant appealDeadlineLedger
        quorumBps atLedger)) ∨
    EventParserV1 event.topics event.data ≠ none ∨ event.route = none := by
  obtain ⟨topics, data, contractId, ledger, ledgerClosedAt, txHash⟩ := event
  have hpolicy : ∀ holder, "policy_initiated" ++ ":" ++ holder ∉ EVENT_PARSERS ∧
      "policy_renewed" ++ ":" ++ holder ∉ EVENT_PARSERS := by
    intro holder
    constructor
    · intro hmem
      exact absurd (head_of_key _ hmem) (by simp)
    · intro hmem
      exact absurd (head_of_key _ hmem) (by simp)
  rcases e with e | ⟨claimId, voter, vote, approveVotes, rejectVotes, atLedger⟩
  · cases e with
    | policyInitiated policyId holder =>
      cases h
      exact .inr (.inl (unknown_key rfl (hpolicy (text holder)).1))
    | policyRenewed holder =>
      cases h
      exact .inr (.inl (unknown_key rfl (hpolicy (text holder)).2))
    | claimFiled =>
      cases h
      exact .inr (.inl (unknown_key rfl (by decide)))
    | voteRevealed =>
      cases h
      exact .inr (.inl (unknown_key rfl (by decide)))
    | appealVoteCast =>
      cases h
      exact .inr (.inl (unknown_key rfl (by decide)))
    | appealOpened => exact .inl ⟨_, _, _, _, _, _, rfl⟩
    | appealResolved claimId policyId claimant outcome approveVotes rejectVotes atLedger =>
      cases h
      -- the outcome is a number, and is compared with names
      refine .inr (.inr ?_)
      have hmap : mapAppealOutcome (ClaimStatus.native outcome) true = none := by
        cases outcome <;> decide
      exact congrArg (Option.map Handler.appealResolved) hmap
    | _ => cases h
  · cases h
    exact .inr (.inr rfl)

/-- What is not parsed or not routed is not mirrored. -/
theorem not_mirrored (h : EventParserV1 event.topics event.data ≠ none ∨ event.route = none) :
    ¬ Mirrored text normalize registry t event e := by
  rintro ⟨handler, t', hprocess, -, -⟩
  unfold processNewEvent at hprocess
  rw [selectParser_eq] at hprocess
  split at hprocess
  · cases hprocess
  · rename_i hparsed
    rcases h with h | h
    · exact h hparsed
    · rw [h] at hprocess
      cases hprocess

end

/-! ## Opened appeals -/

section

variable {text : Address → String} {normalize : String → Option String}
  {registry : List DeploymentEntry} {t : Tables} {event : SorobanEvent} {claimId policyId : Nat}
  {claimant : Address} {appealDeadlineLedger quorumBps atLedger : Nat}

theorem int4_natCast (n : Nat) : int4 (some (n : Int)) = if n ≤ INT4_MAX then some n else none := by
  have hiff : (0 ≤ (n : Int) ∧ (n : Int) ≤ INT4_MAX) ↔ n ≤ INT4_MAX := by omega
  simp only [int4, Option.bind_some, hiff, Int.toNat_natCast]

@[simp] theorem mirrorAppealVoters_claims (appealsCount : Nat) :
    (mirrorAppealVoters t claimId appealsCount).claims = t.claims := by
  unfold mirrorAppealVoters
  split
  · rfl
  · rfl

/-- The claim has a row that is not deleted. -/
def Tables.HasLiveClaim (t : Tables) (claimId : Nat) : Prop :=
  ∃ r ∈ t.claims, r.id = claimId ∧ r.deletedAt = none

theorem handleAppealOpened_of_live (hid : event.resolveClaimId = some (claimId : Int))
    (hfits : claimId ≤ INT4_MAX) (hlive : t.HasLiveClaim claimId) :
    ∃ t', handleAppealOpened t event = some t' ∧
      (∃ r ∈ t'.claims, r.id = claimId ∧ r.deletedAt = none ∧ r.status = .underAppeal ∧
        r.updatedAtLedger = event.ledger ∧ 0 < r.appealsCount) ∧
      ∀ r ∈ t'.claims, r ∈ t.claims ∨ some claimId = some r.id := by
  obtain ⟨r, hr, hrid, hrlive⟩ := hlive
  have hsome : (t.claims.find? fun r => r.id = claimId ∧ r.deletedAt = none).isSome := by
    rw [List.find?_isSome]
    exact ⟨r, hr, by simp [hrid, hrlive]⟩
  obtain ⟨existing, hexisting⟩ := Option.isSome_iff_exists.mp hsome
  have hmem := List.mem_of_find?_eq_some hexisting
  have hfound := List.find?_some hexisting
  rw [decide_eq_true_eq] at hfound
  rw [handleAppealOpened, hid]
  simp only [int4_natCast, if_pos hfits, Option.bind_eq_bind, Option.bind_some, hexisting,
    Option.pure_def]
  refine ⟨_, rfl, ?_, ?_⟩
  · rw [mirrorAppealVoters_claims]
    refine ⟨_, mem_updateWhere.mpr ⟨existing, hmem, rfl⟩, ?_⟩
    rw [if_pos (by simpa using hfound)]
    refine ⟨hfound.1, hfound.2, rfl, rfl, ?_⟩
    show 0 < if _ then _ else _
    split
    · rename_i hcounted
      rw [decide_eq_true_eq] at hcounted
      exact hcounted.2
    · exact Nat.succ_pos _
  · intro r' hr'
    rw [mirrorAppealVoters_claims] at hr'
    obtain ⟨r₀, hr₀, rfl⟩ := mem_updateWhere.mp hr'
    split
    · rename_i hsel
      rw [decide_eq_true_eq] at hsel
      exact .inr (congrArg some hsel.1.symm)
    · exact .inl hr₀

theorem live_of_handleAppealOpened {t' : Tables} (hid : event.resolveClaimId = some (claimId : Int))
    (h : handleAppealOpened t event = some t')
    (hshown : ∃ r ∈ t'.claims, r.id = claimId ∧ r.deletedAt = none) :
    claimId ≤ INT4_MAX ∧ t.HasLiveClaim claimId := by
  rw [handleAppealOpened, hid] at h
  by_cases hfits : claimId ≤ INT4_MAX
  · refine ⟨hfits, ?_⟩
    simp only [int4_natCast, if_pos hfits, Option.bind_eq_bind, Option.bind_some,
      Option.pure_def] at h
    split at h
    · cases h
      exact hshown
    · rename_i existing hexisting
      have hfound := List.find?_some hexisting
      rw [decide_eq_true_eq] at hfound
      exact ⟨existing, List.mem_of_find?_eq_some hexisting, hfound⟩
  · simp [int4_natCast, hfits] at h

theorem processNewEvent_appealOpened (normalize : String → Option String)
    (registry : List DeploymentEntry) (t : Tables)
    (h : ContractEvent.encode text (.emitted (.appealOpened claimId policyId claimant
      appealDeadlineLedger quorumBps atLedger)) = some (event.topics, event.data)) :
    event.resolveClaimId = some (claimId : Int) ∧ processNewEvent normalize registry t event =
      (handleAppealOpened t event).map fun t' => (.routed .appealOpened, t') := by
  obtain ⟨topics, data, contractId, ledger, ledgerClosedAt, txHash⟩ := event
  cases h
  constructor
  · rfl
  · rw [processNewEvent, selectParser_eq]
    rfl

/-- **An event is mirrored exactly when it opens an appeal for a claim that has a live row.** -/
theorem mirrored_iff {e : ContractEvent} (h : e.encode text = some (event.topics, event.data)) :
    Mirrored text normalize registry t event e ↔
      ∃ claimId policyId claimant appealDeadlineLedger quorumBps atLedger,
        e = .emitted (.appealOpened claimId policyId claimant appealDeadlineLedger
          quorumBps atLedger) ∧ claimId ≤ INT4_MAX ∧ t.HasLiveClaim claimId := by
  constructor
  · intro hmirrored
    rcases encode_cases h with
      ⟨claimId, policyId, claimant, appealDeadlineLedger, quorumBps, atLedger, rfl⟩ | hunread
    · obtain ⟨hid, hprocess⟩ := processNewEvent_appealOpened normalize registry t h
      obtain ⟨handler, t', hresult, ⟨r, hr, hrid, hrlive, -⟩, -⟩ := hmirrored
      rw [hprocess] at hresult
      obtain ⟨t₁, ht₁, hpair⟩ := Option.map_eq_some_iff.mp hresult
      cases hpair
      have hlive := live_of_handleAppealOpened hid ht₁ ⟨r, hr, hrid, hrlive⟩
      exact ⟨claimId, policyId, claimant, appealDeadlineLedger, quorumBps, atLedger, rfl, hlive⟩
    · exact absurd hmirrored (not_mirrored hunread)
  · rintro ⟨claimId, policyId, claimant, appealDeadlineLedger, quorumBps, atLedger,
      rfl, hfits, hlive⟩
    obtain ⟨hid, hprocess⟩ := processNewEvent_appealOpened normalize registry t h
    obtain ⟨t', ht', hshown, hothers⟩ := handleAppealOpened_of_live hid hfits hlive
    refine ⟨.appealOpened, t', ?_, hshown, hothers⟩
    rw [hprocess, ht']
    rfl

end

/-! ## A filed claim and an opened appeal -/

/-- An envelope for topics and data. -/
def envelope (encoded : List Native × Payload) : SorobanEvent :=
  ⟨encoded.1, encoded.2, "CA", 5000, "2026-01-01T00:00:00Z", "aa"⟩

/-- The texts of the addresses of a deployment. -/
def demoText (a : Address) : String := "G" ++ toString a

/-- A rejected claim 42 and its policy. -/
def rejectedClaim : Tables where
  claims := [⟨42, "G1:3", "G1", "100", none, "", [], .rejected, true, 1, 2, 900, 1000,
    "aa", none, 0, none, none⟩]
  votes := []
  policies := [⟨"G1:3", 3, "G1", "Auto", "Low", "1000", "10", true, 800, 9000, none, "aa"⟩]
  registeredVoters := ["G2", "G3"]
  appealVoterSnapshots := []
  allowedAssets := []

/-- The appeal against its rejection. -/
def openedAppeal : ContractEvent := .emitted (.appealOpened 42 3 1 5100 7500 5000)

def openedAppealEvent : SorobanEvent :=
  envelope ([.str "niffyinsure", .str "appeal_opened", .big 42],
    [("policy_id", .num 3), ("claimant", .str (demoText 1)), ("appeal_deadline_ledger", .num 5100),
      ("quorum_bps", .num 7500), ("at_ledger", .num 5000)])

theorem mirrored_iff_openedAppeal :
    Mirrored demoText some [⟨"CA", 1, 0, none⟩] rejectedClaim openedAppealEvent openedAppeal :=
  (mirrored_iff (e := openedAppeal) rfl).mpr
    ⟨42, 3, 1, 5100, 7500, 5000, rfl, by decide, ⟨_, List.mem_singleton_self _, rfl, rfl⟩⟩

/-- The claim of the account 1 on its policy 3, as it is filed. -/
def filedClaimEvent : SorobanEvent :=
  envelope ([.str "niffyinsure", .str "claim_filed", .big 43],
    [("holder", .str (demoText 1)), ("policy_id", .num 3), ("claim_amount", .big 100),
      ("deductible", .big 0)])

/-- A filed claim becomes a warning row. -/
theorem filed_claim_not_mirrored :
    (ContractEvent.emitted (.claimFiled 43 1 3 100 0 [])).encode demoText =
      some (filedClaimEvent.topics, filedClaimEvent.data) ∧
    processNewEvent some [⟨"CA", 1, 0, none⟩] rejectedClaim filedClaimEvent =
      some (.warning "unknown_event_key", rejectedClaim) ∧
    ¬ Mirrored demoText some [⟨"CA", 1, 0, none⟩] rejectedClaim filedClaimEvent
      (.emitted (.claimFiled 43 1 3 100 0 [])) := by
  refine ⟨rfl, rfl, ?_⟩
  rintro ⟨handler, t', hprocess, -, -⟩
  have hwarn : processNewEvent some [⟨"CA", 1, 0, none⟩] rejectedClaim filedClaimEvent =
      some (.warning "unknown_event_key", rejectedClaim) := rfl
  rw [hwarn] at hprocess
  cases hprocess

end NiffyInsure.Backend
