import NiffyInsure.Backend.ClaimHistory
import NiffyInsure.Backend.Events
import NiffyInsure.Lib.StableSort

/-!
# The timeline of a claim

`getTimeline` of `claim-history.service.ts` lists the transitions of a claim that the raw events
tell of, and adds what an appeal must have left behind if the row of the claim knows of it and the
events do not.

* `complete_appendSynthetic_iff`: when the list is complete, by the transitions that are there
  before.
* `timeline_complete_iff`: when it is, by the rows.
-/

namespace NiffyInsure.Backend.ClaimTimeline

open ClaimHistory

/-! ## Statuses -/

section

variable (p : Platform)

/-- `lower.includes(word)`. -/
def includes (s word : String) : Bool := decide (word.toList <:+: s.toList)

/-- `data['outcome'] ?? data['new_status'] ?? data['status']`. -/
def outcomeField (data : Fields) : JsonField :=
  match data.get "outcome", data.get "new_status" with
  | .nullish, .nullish => data.get "status"
  | .nullish, newStatus => newStatus
  | outcome, _ => outcome

/-- The status of a field, in small letters. -/
def lowerStatus : JsonField → String
  | .string s => p.toLowerCase s
  | _ => "unknown"

/-- The status that an `appeal_resolved` has for its outcome. -/
def resolvedStatus (data : Fields) : String :=
  match outcomeField data with
  | .string outcome =>
    let lower := p.toLowerCase outcome
    if includes lower "approv" then "appeal_approved"
    else if includes lower "reject" then "appeal_rejected"
    else lower
  | _ => "appeal_resolved"

/-- `mapRawEventToStatus`. -/
def mapRawEventToStatus (topic1 topic2 : Option String) (data : Fields) : String :=
  let t1 := topic1.getD ""
  let t2 := topic2.getD ""
  let rest := p.toLowerCase (if t2 ≠ "" then t2 else t1)
  if t1 = "claim_filed" then "pending"
  else if t1 = "claim_approved" then "approved"
  else if t1 = "claim_rejected" then "rejected"
  else if t1 = "claim_pd" ∨ t1 = "claim_paid" then "paid"
  else if t1 = "claim_withdrawn" then "withdrawn"
  else if t1 = "niffyins" then
    if t2 = "clm_filed" then "pending"
    else if t2 = "claim_status_changed" then lowerStatus p (data.get "new_status")
    else if t2 = "clm_final" then lowerStatus p (data.get "status")
    else if t2 = "clm_paid" then "paid"
    else rest
  else if t1 = "niffyinsure" then
    if t2 = "claim_withdrawn" then "withdrawn"
    else if t2 = "claim_fully_paid" then "paid"
    else if t2 = "appeal_opened" ∨ t2 = "appeal_filed" then "under_appeal"
    else if t2 = "appeal_approved" then "appeal_approved"
    else if t2 = "appeal_rejected" then "appeal_rejected"
    else if t2 = "appeal_resolved" then resolvedStatus p data
    else rest
  else if t1 = "appeal" then
    if t2 = "filed" then "under_appeal"
    else if t2 = "approved" then "appeal_approved"
    else if t2 = "rejected" then "appeal_rejected"
    else rest
  else rest

/-- `extractActor`. -/
def extractActor (topic1 topic2 topic4 : Option String) (data : Fields) : Option String :=
  match data.get "actor" with
  | .string actor => some actor
  | _ =>
    let t1 := topic1.getD ""
    let t2 := topic2.getD ""
    if t1 = "niffyins" ∧ t2 = "clm_filed" then topic4
    else if t1 = "niffyins" ∧ t2 = "clm_paid" then (data.get "recipient").string?
    else if t1 = "niffyinsure" ∧ t2 = "claim_withdrawn" then (data.get "claimant").string?
    else if t1 = "niffyinsure" ∧ t2 = "claim_fully_paid" then (data.get "recipient").string?
    else if t1 = "niffyinsure" ∧ t2 ∈ ["appeal_opened", "appeal_filed", "appeal_resolved",
        "appeal_approved", "appeal_rejected"] then (data.get "claimant").string?
    else if t1 = "appeal" then (data.get "claimant").string?
    else none

/-- The reason of an `appeal_resolved`. -/
def resolvedReason (data : Fields) : String :=
  match outcomeField data with
  | .string outcome =>
    let lower := p.toLowerCase outcome
    if includes lower "approv" then "Appeal approved"
    else if includes lower "reject" then "Appeal rejected"
    else "Appeal resolved"
  | _ => "Appeal resolved"

/-- `extractReason`. -/
def extractReason (topic1 topic2 : Option String) (data : Fields) : Option String :=
  match data.get "reason" with
  | .string reason => some reason
  | _ =>
    let t1 := topic1.getD ""
    let t2 := topic2.getD ""
    if t1 = "niffyins" then
      if t2 = "clm_final" ∧ data.get "status" = .string "Approved" then some "Vote majority reached"
      else if t2 = "clm_final" ∧ data.get "status" = .string "Rejected" then
        some "Vote majority rejected"
      else if t2 = "clm_paid" then some "Payout processed"
      else none
    else if t1 = "niffyinsure" then
      if t2 = "claim_withdrawn" then some "Claimant withdrawal"
      else if t2 = "claim_fully_paid" then some "Fully paid"
      else if t2 = "appeal_opened" ∨ t2 = "appeal_filed" then some "Appeal opened"
      else if t2 = "appeal_approved" then some "Appeal approved"
      else if t2 = "appeal_rejected" then some "Appeal rejected"
      else if t2 = "appeal_resolved" then some (resolvedReason p data)
      else none
    else if t1 = "appeal" then
      if t2 = "filed" then some "Appeal opened"
      else if t2 = "approved" then some "Appeal approved"
      else if t2 = "rejected" then some "Appeal rejected"
      else none
    else none

end

/-! ## `getTimeline` -/

def CONTRACT_CLAIM_EVENTS : List String :=
  ["clm_filed", "claim_status_changed", "clm_final", "clm_paid"]

def CONTRACT_POLICY_EVENTS : List String :=
  ["claim_withdrawn", "claim_fully_paid", "appeal_opened", "appeal_resolved", "appeal_filed",
    "appeal_approved", "appeal_rejected"]

def LEGACY_APPEAL_EVENTS : List String := ["filed", "approved", "rejected"]

/-- `ClaimTimelineEntryDto`.  Times are in the order of their ISO texts. -/
structure ClaimTimelineEntryDto where
  status : String
  ledger : Nat
  timestamp : Int
  actor : Option String
  reason : Option String
  deriving DecidableEq

/-- The comparison of the sort, by ledger and then by time: the first one does not come later. -/
def NotLater (a b : ClaimTimelineEntryDto) : Prop :=
  a.ledger < b.ledger ∨ a.ledger = b.ledger ∧ a.timestamp ≤ b.timestamp

instance : DecidableRel NotLater := fun _ _ => inferInstanceAs (Decidable (_ ∨ _))

instance : IsTrans ClaimTimelineEntryDto NotLater where
  trans a b c hab hbc := by
    unfold NotLater at hab hbc ⊢
    omega

instance : Std.Total NotLater where
  total a b := by
    unfold NotLater
    omega

/-- One of the four clauses: a name in `topic1`, one of some names in `topic2`, and the claim in
`topic3`. -/
def contractEvent (claim : ClaimRecord) (topic1 : String) (names : List String)
    (e : RawEventRow) : Bool :=
  decide (e.topic1 = some topic1) && names.any (fun t => decide (e.topic2 = some t)) &&
    decide (e.topic3 = some (toString claim.id))

/-- The events of a claim, in order. -/
def timelineRows (db : HistoryDb) (claim : ClaimRecord) : List RawEventRow :=
  db.findEvents fun e =>
    (claim.txHash.all (fun h => decide (e.txHash = h)) &&
      LEGACY_TOPICS.any fun t => decide (e.topic1 = some t)) ||
    contractEvent claim "niffyins" CONTRACT_CLAIM_EVENTS e ||
    contractEvent claim "niffyinsure" CONTRACT_POLICY_EVENTS e ||
    contractEvent claim "appeal" LEGACY_APPEAL_EVENTS e

section

variable (p : Platform)

/-- The entry of an event.  With `null` for data, at the latest `extractActor` throws. -/
def timelineEntry (e : RawEventRow) : Option ClaimTimelineEntryDto :=
  match e.data with
  | .null => none
  | .members data => some
      { status := mapRawEventToStatus p e.topic1 e.topic2 data
        ledger := e.ledger
        timestamp := e.ledgerClosedAt
        actor := extractActor e.topic1 e.topic2 e.topic4 data
        reason := extractReason p e.topic1 e.topic2 data }

/-- The entries that are made of the claim itself. -/
def synthesizedTimeline (claim : ClaimRecord) : List ClaimTimelineEntryDto :=
  ⟨"pending", claim.createdAtLedger, claim.createdAt, none, none⟩ ::
    if claim.status ≠ .pending then
      [⟨p.toLowerCase (statusName claim.status), claim.createdAtLedger,
        claim.createdAt, none, none⟩]
    else []

end

section

variable (claim : ClaimRecord)

/-- The row shows an appeal. -/
def appealed : Prop :=
  0 < claim.appealsCount ∨ claim.appealTxHash.filter (· ≠ "") ≠ none ∨ claim.status = .underAppeal

instance : Decidable (appealed claim) := inferInstanceAs (Decidable (_ ∨ _ ∨ _))

/-- The transition that opens an appeal, by the row. -/
def openingEntry : ClaimTimelineEntryDto :=
  ⟨"under_appeal", claim.updatedAtLedger, claim.updatedAt, none, some "Appeal opened"⟩

/-- The transition that ends it. -/
def outcomeEntry : ClaimTimelineEntryDto :=
  ⟨if claim.status = .approved then "appeal_approved" else "appeal_rejected", claim.updatedAtLedger,
    claim.updatedAt, none,
    some (if claim.status = .approved then "Appeal approved" else "Appeal rejected")⟩

/-- The row has the outcome of an appeal, as it is understood here. -/
def resolvedByRow : Prop :=
  (claim.status = .approved ∨ claim.status = .rejected) ∧ 0 < claim.appealsCount

instance : Decidable (resolvedByRow claim) := inferInstanceAs (Decidable (_ ∧ _))

/-- `appendSyntheticAppealTransitions`. -/
def appendSyntheticAppealTransitions (data : List ClaimTimelineEntryDto) :
    List ClaimTimelineEntryDto :=
  let hasAppealOpen := data.any fun e => decide (e.status = "under_appeal")
  let hasAppealResolve := data.any fun e =>
    decide (e.status = "appeal_approved" ∨ e.status = "appeal_rejected")
  if ¬ appealed claim then data
  else
    let data := if ¬ hasAppealOpen then data ++ [openingEntry claim] else data
    let data := if ¬ hasAppealResolve ∧ resolvedByRow claim then data ++ [outcomeEntry claim]
      else data
    data.insertionSort NotLater

end

/-- `getTimeline`. -/
def getTimeline (p : Platform) (db : HistoryDb) (tenantId : Option String) (claimId : Nat) :
    Except HistoryFault (List ClaimTimelineEntryDto) :=
  match db.findClaim tenantId claimId with
  | none => .error (.notFound claimId)
  | some claim =>
    match (timelineRows db claim).mapM (timelineEntry p) with
    | none => .error .typeError
    | some data =>
      let data := if data.length = 0 then data ++ synthesizedTimeline p claim else data
      .ok (appendSyntheticAppealTransitions claim data)

/-! ## What is complete -/

/-- A status as the indexer compares it, without underscores. -/
def ClaimTimelineEntryDto.kind (e : ClaimTimelineEntryDto) : List Char := normalizedWord e.status

/-- It opens an appeal. -/
def ClaimTimelineEntryDto.Opens (e : ClaimTimelineEntryDto) : Prop :=
  e.kind = "underappeal".toList

instance (e : ClaimTimelineEntryDto) : Decidable e.Opens := inferInstanceAs (Decidable (_ = _))

section

variable (claim : ClaimRecord)

/-- The row reflects an appeal. -/
def ReflectsAppeal : Prop :=
  claim.status = .underAppeal ∨ claim.status = .appealApproved ∨ claim.status = .appealRejected ∨
    0 < claim.appealsCount

/-- The appeals that were opened; the row of an appealed claim stands for one at least. -/
def appealsOpened : Nat := max 1 claim.appealsCount

/-- The outcome that the row has for its last appeal, in the words of the indexer or in those of
this service. -/
def rowOutcome : Option (List Char) :=
  match claim.status with
  | .appealApproved => some "appealapproved".toList
  | .appealRejected => some "appealrejected".toList
  | .approved => if 0 < claim.appealsCount then some "appealapproved".toList else none
  | .rejected => if 0 < claim.appealsCount then some "appealrejected".toList else none
  | _ => none

/-- Sorted by ledger, with one opening for each appeal that was opened, with the outcome of the row
behind all of them, and with no transition twice. -/
structure TimelineComplete (l : List ClaimTimelineEntryDto) : Prop where
  sorted : l.Pairwise fun a b => a.ledger ≤ b.ledger
  opened : l.countP (fun e => decide e.Opens) = appealsOpened claim
  resolved : ∀ outcome, rowOutcome claim = some outcome →
    ∃ front x back, l = front ++ x :: back ∧ x.kind = outcome ∧ ∀ y ∈ back, ¬ y.Opens
  distinct : (l.map fun e => (e.kind, e.ledger)).Nodup

/-- An opening is made of the row. -/
def AddsOpening (data : List ClaimTimelineEntryDto) : Prop :=
  appealed claim ∧ ∀ e ∈ data, e.status ≠ "under_appeal"

/-- An outcome is. -/
def AddsOutcome (data : List ClaimTimelineEntryDto) : Prop :=
  resolvedByRow claim ∧ ∀ e ∈ data, e.status ≠ "appeal_approved" ∧ e.status ≠ "appeal_rejected"

instance (data : List ClaimTimelineEntryDto) : Decidable (AddsOpening claim data) :=
  inferInstanceAs (Decidable (_ ∧ _))

instance (data : List ClaimTimelineEntryDto) : Decidable (AddsOutcome claim data) :=
  inferInstanceAs (Decidable (_ ∧ _))

/-- What is added. -/
def added (data : List ClaimTimelineEntryDto) : List ClaimTimelineEntryDto :=
  (if AddsOpening claim data then [openingEntry claim] else []) ++
    if AddsOutcome claim data then [outcomeEntry claim] else []

/-- One transition stands before another one, when the list is put together. -/
def StandsBefore (data : List ClaimTimelineEntryDto) (y x : ClaimTimelineEntryDto) : Prop :=
  if appealed claim then NotLater y x ∧ (¬ NotLater x y ∨ [y, x].Sublist data)
  else [y, x].Sublist data

/-- What is there, and what is added to it, make a complete list. -/
structure Fits (data : List ClaimTimelineEntryDto) : Prop where
  opened : data.countP (fun e => decide e.Opens) + (if AddsOpening claim data then 1 else 0) =
    appealsOpened claim
  resolved : ∀ outcome, rowOutcome claim = some outcome →
    (AddsOutcome claim data ∧ ∀ y ∈ data, y.Opens → NotLater y (outcomeEntry claim)) ∨
    ∃ x ∈ data, x.kind = outcome ∧ (∀ y ∈ data, y.Opens → StandsBefore claim data y x) ∧
      (AddsOpening claim data → ¬ NotLater x (openingEntry claim))
  distinct : (data.map fun e => (e.kind, e.ledger)).Nodup
  newOpening : AddsOpening claim data → ∀ e ∈ data, e.Opens → e.ledger ≠ claim.updatedAtLedger
  newOutcome : AddsOutcome claim data → ∀ e ∈ data, rowOutcome claim = some e.kind →
    e.ledger ≠ claim.updatedAtLedger

end

section

variable {claim : ClaimRecord} {data : List ClaimTimelineEntryDto}

theorem appealed_of_resolvedByRow (h : resolvedByRow claim) : appealed claim := .inl h.2

theorem appendSynthetic_eq (claim : ClaimRecord) (data : List ClaimTimelineEntryDto) :
    appendSyntheticAppealTransitions claim data =
      if appealed claim then (data ++ added claim data).insertionSort NotLater else data := by
  unfold appendSyntheticAppealTransitions
  by_cases happealed : appealed claim
  case neg => rw [if_pos happealed, if_neg happealed]
  rw [if_neg (not_not.mpr happealed), if_pos happealed]
  dsimp only
  have hopening : ¬ (data.any fun e => decide (e.status = "under_appeal")) = true ↔
      AddsOpening claim data := by
    unfold AddsOpening
    simp [happealed]
  have houtcome : (¬ (data.any fun e =>
      decide (e.status = "appeal_approved" ∨ e.status = "appeal_rejected")) = true ∧
        resolvedByRow claim) ↔ AddsOutcome claim data := by
    rw [AddsOutcome, and_comm, List.any_eq_true]
    refine and_congr_right fun _ => ?_
    simp only [decide_eq_true_eq, not_exists, not_and, not_or, ne_eq]
  congr 1
  unfold added
  by_cases ho : AddsOpening claim data <;> by_cases hr : AddsOutcome claim data
  · rw [if_pos (houtcome.mpr hr), if_pos (hopening.mpr ho), if_pos ho, if_pos hr,
      List.append_assoc]
  · rw [if_neg (mt houtcome.mp hr), if_pos (hopening.mpr ho), if_pos ho, if_neg hr,
      List.append_nil]
  · rw [if_pos (houtcome.mpr hr), if_neg (mt hopening.mp ho), if_neg ho, if_pos hr,
      List.nil_append]
  · rw [if_neg (mt houtcome.mp hr), if_neg (mt hopening.mp ho), if_neg ho, if_neg hr,
      List.append_nil, List.append_nil]

theorem kind_openingEntry (claim : ClaimRecord) : (openingEntry claim).Opens := by
  have hkind : normalizedWord "under_appeal" = "underappeal".toList := by decide
  exact hkind

theorem kind_outcomeEntry (h : resolvedByRow claim) :
    rowOutcome claim = some (outcomeEntry claim).kind := by
  have happroved : "appealapproved".toList = normalizedWord "appeal_approved" := by decide
  have hrejected : "appealrejected".toList = normalizedWord "appeal_rejected" := by decide
  obtain ⟨hstatus | hstatus, hcount⟩ := h
  · unfold rowOutcome outcomeEntry
    rw [hstatus]
    dsimp only
    rw [if_pos hcount, happroved]
    rfl
  · unfold rowOutcome outcomeEntry
    rw [hstatus]
    dsimp only
    rw [if_pos hcount, hrejected]
    rfl

theorem not_opens_of_outcome {e : ClaimTimelineEntryDto} (h : rowOutcome claim = some e.kind) :
    ¬ e.Opens := by
  intro hopens
  unfold ClaimTimelineEntryDto.Opens at hopens
  rw [hopens] at h
  unfold rowOutcome at h
  cases hstatus : claim.status <;> rw [hstatus] at h <;> revert h <;> dsimp only <;>
    first | (split <;> decide) | decide

theorem mem_added {e : ClaimTimelineEntryDto} :
    e ∈ added claim data ↔ AddsOpening claim data ∧ e = openingEntry claim ∨
      AddsOutcome claim data ∧ e = outcomeEntry claim := by
  unfold added
  rw [List.mem_append]
  refine or_congr ?_ ?_
  · split <;> simp_all
  · split <;> simp_all

theorem added_of_not_appealed (h : ¬ appealed claim) : added claim data = [] := by
  refine List.eq_nil_iff_forall_not_mem.mpr fun e he => ?_
  rcases mem_added.mp he with ⟨hadds, -⟩ | ⟨hadds, -⟩
  · exact h hadds.1
  · exact h (appealed_of_resolvedByRow hadds.1)

/-- The entries of the list are those that were there and those that are added. -/
theorem perm_appendSynthetic (claim : ClaimRecord) (data : List ClaimTimelineEntryDto) :
    (appendSyntheticAppealTransitions claim data).Perm (data ++ added claim data) := by
  rw [appendSynthetic_eq]
  split
  case isTrue => exact List.perm_insertionSort _ _
  case isFalse h => rw [added_of_not_appealed h, List.append_nil]

theorem sorted_appendSynthetic (h : data.Pairwise fun a b => a.ledger ≤ b.ledger) :
    (appendSyntheticAppealTransitions claim data).Pairwise fun a b => a.ledger ≤ b.ledger := by
  rw [appendSynthetic_eq]
  split
  case isFalse => exact h
  case isTrue =>
    refine (List.pairwise_insertionSort NotLater _).imp fun hle => ?_
    unfold NotLater at hle
    omega

theorem countP_appendSynthetic (claim : ClaimRecord) (data : List ClaimTimelineEntryDto) :
    (appendSyntheticAppealTransitions claim data).countP (fun e => decide e.Opens) =
      data.countP (fun e => decide e.Opens) + if AddsOpening claim data then 1 else 0 := by
  rw [(perm_appendSynthetic claim data).countP_eq, List.countP_append]
  congr 1
  unfold added
  rw [List.countP_append]
  have hopening : [openingEntry claim].countP (fun e => decide e.Opens) = 1 := by
    rw [List.countP_singleton, decide_eq_true (kind_openingEntry claim), if_pos rfl]
  have houtcome : (if AddsOutcome claim data then [outcomeEntry claim] else []).countP
      (fun e => decide e.Opens) = 0 := by
    refine List.countP_eq_zero.mpr fun e he => ?_
    split at he
    case isFalse => cases he
    case isTrue h =>
      rw [List.mem_singleton.mp he, decide_eq_true_eq]
      exact not_opens_of_outcome (kind_outcomeEntry h.1)
  rw [houtcome]
  split
  · rw [hopening]
  · rfl

theorem nodup_appendSynthetic (claim : ClaimRecord) (data : List ClaimTimelineEntryDto) :
    ((appendSyntheticAppealTransitions claim data).map fun e => (e.kind, e.ledger)).Nodup ↔
      (data.map fun e => (e.kind, e.ledger)).Nodup ∧
      (AddsOpening claim data → ∀ e ∈ data, e.Opens → e.ledger ≠ claim.updatedAtLedger) ∧
      (AddsOutcome claim data → ∀ e ∈ data, rowOutcome claim = some e.kind →
        e.ledger ≠ claim.updatedAtLedger) := by
  rw [((perm_appendSynthetic claim data).map _).nodup_iff, List.map_append, List.nodup_append']
  have hadded : ((added claim data).map fun e => (e.kind, e.ledger)).Nodup := by
    unfold added
    split <;> split
    case isTrue.isTrue _ h =>
      have hne : (openingEntry claim).kind ≠ (outcomeEntry claim).kind := by
        intro heq
        refine not_opens_of_outcome (kind_outcomeEntry h.1) ?_
        exact heq.symm.trans (kind_openingEntry claim)
      simp [hne]
    all_goals simp
  rw [and_iff_right hadded]
  refine and_congr_right fun _ => ?_
  rw [List.disjoint_left]
  constructor
  · intro hdisjoint
    refine ⟨fun hadds e he hopens hledger => ?_, fun hadds e he hkind hledger => ?_⟩
    · refine hdisjoint (List.mem_map_of_mem he) (List.mem_map.mpr ⟨openingEntry claim, ?_, ?_⟩)
      · exact mem_added.mpr (.inl ⟨hadds, rfl⟩)
      · rw [Prod.mk.injEq]
        exact ⟨(kind_openingEntry claim).trans hopens.symm, hledger.symm⟩
    · refine hdisjoint (List.mem_map_of_mem he) (List.mem_map.mpr ⟨outcomeEntry claim, ?_, ?_⟩)
      · exact mem_added.mpr (.inr ⟨hadds, rfl⟩)
      · rw [Prod.mk.injEq]
        have hsome := (kind_outcomeEntry hadds.1).symm.trans hkind
        exact ⟨Option.some.inj hsome, hledger.symm⟩
  · rintro ⟨hopening, houtcome⟩ k hk hk'
    obtain ⟨e, he, rfl⟩ := List.mem_map.mp hk
    obtain ⟨e', he', heq⟩ := List.mem_map.mp hk'
    obtain ⟨hkind, hledger⟩ := Prod.mk.inj heq
    rcases mem_added.mp he' with ⟨hadds, rfl⟩ | ⟨hadds, rfl⟩
    · exact hopening hadds e he (hkind.symm.trans (kind_openingEntry claim)) hledger.symm
    · refine houtcome hadds e he ?_ hledger.symm
      rw [kind_outcomeEntry hadds.1, hkind]

/-- An entry that was there stands before another one in the end, if it does in this sense. -/
theorem pair_appendSynthetic_iff (hnodup : (data ++ added claim data).Nodup)
    {x y : ClaimTimelineEntryDto} (hx : x ∈ data) (hy : y ∈ data) (hne : x ≠ y) :
    [y, x].Sublist (appendSyntheticAppealTransitions claim data) ↔ StandsBefore claim data y x := by
  rw [appendSynthetic_eq]
  unfold StandsBefore
  split
  case isFalse => rfl
  case isTrue =>
    rw [StableSort.pair_insertionSort_iff hnodup (List.mem_append_left _ hx)
      (List.mem_append_left _ hy) hne, StableSort.pair_append_iff hnodup hy hx hne.symm]

/-- An opening that is made of the row stands before an entry that was there, if that is later. -/
theorem opening_pair_iff (hnodup : (data ++ added claim data).Nodup)
    (hadds : AddsOpening claim data) {x : ClaimTimelineEntryDto} (hx : x ∈ data) :
    [openingEntry claim, x].Sublist (appendSyntheticAppealTransitions claim data) ↔
      ¬ NotLater x (openingEntry claim) := by
  have hmem : openingEntry claim ∈ added claim data := mem_added.mpr (.inl ⟨hadds, rfl⟩)
  have hne : x ≠ openingEntry claim := by
    rintro rfl
    exact (List.nodup_append'.mp hnodup).2.2 hx hmem
  rw [appendSynthetic_eq, if_pos hadds.1, StableSort.pair_insertionSort_iff hnodup
    (List.mem_append_left _ hx) (List.mem_append_right _ hmem) hne]
  constructor
  · rintro ⟨-, hlater | hpair⟩
    · exact hlater
    · exact absurd (StableSort.pair_append hx hmem) (StableSort.not_pair_of_pair hnodup hpair)
  · intro hlater
    exact ⟨(total_of NotLater x _).resolve_left hlater, .inl hlater⟩

/-- An outcome that is made of the row stands behind an entry that is not later, and behind the
opening that is made with it. -/
theorem outcome_pair_iff (hnodup : (data ++ added claim data).Nodup)
    (hadds : AddsOutcome claim data) {y : ClaimTimelineEntryDto}
    (hy : y ∈ data ∨ AddsOpening claim data ∧ y = openingEntry claim) :
    [y, outcomeEntry claim].Sublist (appendSyntheticAppealTransitions claim data) ↔
      NotLater y (outcomeEntry claim) := by
  have hpair : [y, outcomeEntry claim].Sublist (data ++ added claim data) := by
    rcases hy with hy | ⟨hopening, rfl⟩
    · exact StableSort.pair_append hy (mem_added.mpr (.inr ⟨hadds, rfl⟩))
    · refine List.Sublist.trans ?_ (List.sublist_append_right _ _)
      unfold added
      rw [if_pos hopening, if_pos hadds]
      exact List.Sublist.refl _
  have hne : outcomeEntry claim ≠ y := by
    rintro rfl
    exact StableSort.not_pair_of_pair hnodup hpair hpair
  have hy' : y ∈ data ++ added claim data := hpair.subset List.mem_cons_self
  have hx' : outcomeEntry claim ∈ data ++ added claim data :=
    hpair.subset (List.mem_cons_of_mem _ List.mem_cons_self)
  rw [appendSynthetic_eq, if_pos (appealed_of_resolvedByRow hadds.1),
    StableSort.pair_insertionSort_iff hnodup hx' hy' hne]
  exact ⟨fun h => h.1, fun h => ⟨h, .inr hpair⟩⟩

theorem resolved_iff (hnodup : (data ++ added claim data).Nodup) {outcome : List Char}
    (houtcome : rowOutcome claim = some outcome) :
    (∃ front x back, appendSyntheticAppealTransitions claim data = front ++ x :: back ∧
        x.kind = outcome ∧ ∀ y ∈ back, ¬ y.Opens) ↔
      (AddsOutcome claim data ∧ ∀ y ∈ data, y.Opens → NotLater y (outcomeEntry claim)) ∨
      ∃ x ∈ data, x.kind = outcome ∧ (∀ y ∈ data, y.Opens → StandsBefore claim data y x) ∧
        (AddsOpening claim data → ¬ NotLater x (openingEntry claim)) := by
  have hperm := perm_appendSynthetic claim data
  have hnotopens : ∀ x : ClaimTimelineEntryDto, x.kind = outcome → ¬ x.Opens := by
    rintro x rfl
    exact not_opens_of_outcome houtcome
  have hmem : ∀ e, e ∈ appendSyntheticAppealTransitions claim data ↔ e ∈ data ∨
      AddsOpening claim data ∧ e = openingEntry claim ∨
      AddsOutcome claim data ∧ e = outcomeEntry claim := by
    intro e
    rw [hperm.mem_iff, List.mem_append, mem_added]
  rw [StableSort.exists_last_iff (hperm.nodup_iff.mpr hnodup) hnotopens]
  constructor
  · rintro ⟨x, hx, hkind, hbefore⟩
    rcases (hmem x).mp hx with hx | ⟨hadds, rfl⟩ | ⟨hadds, rfl⟩
    · refine .inr ⟨x, hx, hkind, fun y hy hopens => ?_, fun hadds => ?_⟩
      · have hne : x ≠ y := by
          rintro rfl
          exact hnotopens x hkind hopens
        exact (pair_appendSynthetic_iff hnodup hx hy hne).mp
          (hbefore y ((hmem y).mpr (.inl hy)) hopens)
      · exact (opening_pair_iff hnodup hadds hx).mp
          (hbefore _ ((hmem _).mpr (.inr (.inl ⟨hadds, rfl⟩))) (kind_openingEntry claim))
    · exact absurd (kind_openingEntry claim) (hnotopens _ hkind)
    · refine .inl ⟨hadds, fun y hy hopens => ?_⟩
      exact (outcome_pair_iff hnodup hadds (.inl hy)).mp
        (hbefore y ((hmem y).mpr (.inl hy)) hopens)
  · rintro (⟨hadds, hbefore⟩ | ⟨x, hx, hkind, hbefore, hnew⟩)
    · have hkind : (outcomeEntry claim).kind = outcome :=
        Option.some.inj ((kind_outcomeEntry hadds.1).symm.trans houtcome)
      refine ⟨_, (hmem _).mpr (.inr (.inr ⟨hadds, rfl⟩)), hkind, fun y hy hopens => ?_⟩
      rcases (hmem y).mp hy with hy | ⟨hopening, rfl⟩ | ⟨-, rfl⟩
      · exact (outcome_pair_iff hnodup hadds (.inl hy)).mpr (hbefore y hy hopens)
      · refine (outcome_pair_iff hnodup hadds (.inr ⟨hopening, rfl⟩)).mpr ?_
        exact .inr ⟨rfl, Int.le_refl _⟩
      · exact absurd hopens (hnotopens _ hkind)
    · refine ⟨x, (hmem x).mpr (.inl hx), hkind, fun y hy hopens => ?_⟩
      have hne : x ≠ y := by
        rintro rfl
        exact hnotopens x hkind hopens
      rcases (hmem y).mp hy with hy | ⟨hopening, rfl⟩ | ⟨hadds, rfl⟩
      · exact (pair_appendSynthetic_iff hnodup hx hy hne).mpr (hbefore y hy hopens)
      · exact (opening_pair_iff hnodup hopening hx).mpr (hnew hopening)
      · exact absurd hopens (not_opens_of_outcome (kind_outcomeEntry hadds.1))

/-- **When the list is complete**, by the transitions that are there before. -/
theorem complete_appendSynthetic_iff (hsorted : data.Pairwise fun a b => a.ledger ≤ b.ledger) :
    TimelineComplete claim (appendSyntheticAppealTransitions claim data) ↔ Fits claim data := by
  have hperm := perm_appendSynthetic claim data
  have hdistinct := nodup_appendSynthetic claim data
  have hcount := countP_appendSynthetic claim data
  have hnodup : ((appendSyntheticAppealTransitions claim data).map fun e =>
      (e.kind, e.ledger)).Nodup → (data ++ added claim data).Nodup := fun h =>
    hperm.nodup_iff.mp h.of_map
  constructor
  · intro h
    obtain ⟨hdata, hopening, houtcome⟩ := hdistinct.mp h.distinct
    exact ⟨hcount.symm.trans h.opened, fun outcome hsome =>
      (resolved_iff (hnodup h.distinct) hsome).mp (h.resolved outcome hsome), hdata, hopening,
      houtcome⟩
  · intro h
    have hnew := hdistinct.mpr ⟨h.distinct, h.newOpening, h.newOutcome⟩
    exact ⟨sorted_appendSynthetic hsorted, hcount.trans h.opened, fun outcome hsome =>
      (resolved_iff (hnodup hnew) hsome).mpr (h.resolved outcome hsome), hnew⟩

end

/-! ## When events are indexed -/

section

variable (p : Platform) (claim : ClaimRecord) (rows : List RawEventRow)

/-- The status of an event. -/
def rowStatus (e : RawEventRow) : String :=
  match e.data with
  | .null => ""
  | .members data => mapRawEventToStatus p e.topic1 e.topic2 data

/-- It opens an appeal. -/
def RowOpens (e : RawEventRow) : Prop := normalizedWord (rowStatus p e) = "underappeal".toList

instance (e : RawEventRow) : Decidable (RowOpens p e) := inferInstanceAs (Decidable (_ = _))

/-- The row shows an appeal that no event opens in the usual spelling. -/
def OpeningMissing : Prop := appealed claim ∧ ∀ e ∈ rows, rowStatus p e ≠ "under_appeal"

instance : Decidable (OpeningMissing p claim rows) := inferInstanceAs (Decidable (_ ∧ _))

/-- The row is approved or rejected after an appeal that no event ends in the usual spelling. -/
def OutcomeMissing : Prop :=
  resolvedByRow claim ∧
    ∀ e ∈ rows, rowStatus p e ≠ "appeal_approved" ∧ rowStatus p e ≠ "appeal_rejected"

instance : Decidable (OutcomeMissing p claim rows) := inferInstanceAs (Decidable (_ ∧ _))

/-- One event comes before another one: by its ledger, the time of it if there is a sort, and its
id. -/
def RowBefore (y x : RawEventRow) : Prop :=
  y.ledger < x.ledger ∨ y.ledger = x.ledger ∧
    (appealed claim ∧ y.ledgerClosedAt < x.ledgerClosedAt ∨
      (appealed claim → y.ledgerClosedAt = x.ledgerClosedAt) ∧ y.id < x.id)

instance (y x : RawEventRow) : Decidable (RowBefore claim y x) :=
  inferInstanceAs (Decidable (_ ∨ _ ∧ (_ ∧ _ ∨ (_ → _) ∧ _)))

/-- An event is not later than the row. -/
def NotLaterThanRow (y : RawEventRow) : Prop :=
  y.ledger < claim.updatedAtLedger ∨
    y.ledger = claim.updatedAtLedger ∧ y.ledgerClosedAt ≤ claim.updatedAt

/-- An event is later than the row. -/
def LaterThanRow (x : RawEventRow) : Prop :=
  claim.updatedAtLedger < x.ledger ∨
    claim.updatedAtLedger = x.ledger ∧ claim.updatedAt < x.ledgerClosedAt

/-- The events and the row tell of each appeal once: the openings of the events, with one for the
row where they miss it, are as many as appeals were opened; no two events have a status and a ledger
in common, and none has those of an entry that the row stands in for; and where the row has an
outcome, either the row stands in for it and no opening is later, or an event has it that comes
behind all openings. -/
structure IndexedFits : Prop where
  opened : rows.countP (fun e => decide (RowOpens p e)) +
    (if OpeningMissing p claim rows then 1 else 0) = appealsOpened claim
  resolved : ∀ outcome, rowOutcome claim = some outcome →
    (OutcomeMissing p claim rows ∧ ∀ y ∈ rows, RowOpens p y → NotLaterThanRow claim y) ∨
    ∃ x ∈ rows, normalizedWord (rowStatus p x) = outcome ∧
      (∀ y ∈ rows, RowOpens p y → RowBefore claim y x) ∧
      (OpeningMissing p claim rows → LaterThanRow claim x)
  distinct : (rows.map fun e => (normalizedWord (rowStatus p e), e.ledger)).Nodup
  newOpening : OpeningMissing p claim rows → ∀ e ∈ rows, RowOpens p e →
    e.ledger ≠ claim.updatedAtLedger
  newOutcome : OutcomeMissing p claim rows → ∀ e ∈ rows,
    rowOutcome claim = some (normalizedWord (rowStatus p e)) → e.ledger ≠ claim.updatedAtLedger

/-- The entry of an event that has data. -/
def entryOf (e : RawEventRow) : ClaimTimelineEntryDto :=
  (timelineEntry p e).getD ⟨"", e.ledger, e.ledgerClosedAt, none, none⟩

end

section

variable {p : Platform} {claim : ClaimRecord} {rows : List RawEventRow}

theorem timelineEntry_eq_none_iff {e : RawEventRow} :
    timelineEntry p e = none ↔ e.data = .null := by
  unfold timelineEntry
  cases e.data with
  | null => exact iff_of_true rfl rfl
  | members fields => exact iff_of_false nofun nofun

@[simp] theorem entryOf_status (e : RawEventRow) : (entryOf p e).status = rowStatus p e := by
  unfold entryOf timelineEntry rowStatus
  cases e.data <;> rfl

@[simp] theorem entryOf_ledger (e : RawEventRow) : (entryOf p e).ledger = e.ledger := by
  unfold entryOf timelineEntry
  cases e.data <;> rfl

@[simp] theorem entryOf_timestamp (e : RawEventRow) :
    (entryOf p e).timestamp = e.ledgerClosedAt := by
  unfold entryOf timelineEntry
  cases e.data <;> rfl

theorem entryOf_kind (e : RawEventRow) :
    (entryOf p e).kind = normalizedWord (rowStatus p e) := by
  unfold ClaimTimelineEntryDto.kind
  rw [entryOf_status]

theorem entryOf_opens (e : RawEventRow) : (entryOf p e).Opens ↔ RowOpens p e := by
  unfold ClaimTimelineEntryDto.Opens RowOpens
  rw [entryOf_kind]

theorem addsOpening_map : AddsOpening claim (rows.map (entryOf p)) ↔
    OpeningMissing p claim rows := by
  unfold AddsOpening OpeningMissing
  simp only [List.forall_mem_map, entryOf_status]

theorem addsOutcome_map : AddsOutcome claim (rows.map (entryOf p)) ↔
    OutcomeMissing p claim rows := by
  unfold AddsOutcome OutcomeMissing
  simp only [List.forall_mem_map, entryOf_status]

theorem distinct_map :
    ((rows.map (entryOf p)).map fun e => (e.kind, e.ledger)) =
      rows.map fun e => (normalizedWord (rowStatus p e), e.ledger) := by
  rw [List.map_map]
  refine List.map_congr_left fun e _ => ?_
  show ((entryOf p e).kind, (entryOf p e).ledger) = _
  rw [entryOf_kind, entryOf_ledger]

theorem pair_map_iff
    (hrows : rows.Pairwise fun e e' => e.ledger < e'.ledger ∨ e.ledger = e'.ledger ∧ e.id < e'.id)
    (hnodup : (rows.map (entryOf p)).Nodup) {x y : RawEventRow} (hx : x ∈ rows) (hy : y ∈ rows)
    (hne : x ≠ y) :
    [entryOf p y, entryOf p x].Sublist (rows.map (entryOf p)) ↔
      (y.ledger < x.ledger ∨ y.ledger = x.ledger ∧ y.id < x.id) := by
  have hmap : ∀ {a b}, [a, b].Sublist rows →
      [entryOf p a, entryOf p b].Sublist (rows.map (entryOf p)) := fun h => h.map (entryOf p)
  rcases StableSort.pair_or_pair hy hx hne.symm with h | h
  · have hbefore := List.pairwise_pair.mp (hrows.sublist h)
    exact iff_of_true (hmap h) hbefore
  · refine iff_of_false (StableSort.not_pair_of_pair hnodup (hmap h)) ?_
    have hlater := List.pairwise_pair.mp (hrows.sublist h)
    omega

theorem standsBefore_map_iff
    (hrows : rows.Pairwise fun e e' => e.ledger < e'.ledger ∨ e.ledger = e'.ledger ∧ e.id < e'.id)
    (hnodup : (rows.map (entryOf p)).Nodup) {x y : RawEventRow} (hx : x ∈ rows) (hy : y ∈ rows)
    (hne : x ≠ y) :
    StandsBefore claim (rows.map (entryOf p)) (entryOf p y) (entryOf p x) ↔
      RowBefore claim y x := by
  unfold StandsBefore RowBefore NotLater
  rw [pair_map_iff hrows hnodup hx hy hne]
  simp only [entryOf_ledger, entryOf_timestamp]
  by_cases h : appealed claim
  · rw [if_pos h]
    simp only [h, true_and, true_implies]
    omega
  · rw [if_neg h]
    simp only [h, false_and, false_or, false_implies, true_and]

/-- **The condition, by the events.** -/
theorem fits_map_iff
    (hrows : rows.Pairwise fun e e' => e.ledger < e'.ledger ∨ e.ledger = e'.ledger ∧ e.id < e'.id) :
    Fits claim (rows.map (entryOf p)) ↔ IndexedFits p claim rows := by
  have hcount : (rows.map (entryOf p)).countP (fun e => decide e.Opens) =
      rows.countP fun e => decide (RowOpens p e) := by
    rw [List.countP_map]
    refine List.countP_congr fun e _ => ?_
    show decide _ = true ↔ _
    rw [decide_eq_true_eq, decide_eq_true_eq, entryOf_opens]
  have hnewOpening : (∀ e ∈ rows.map (entryOf p), e.Opens → e.ledger ≠ claim.updatedAtLedger) ↔
      ∀ e ∈ rows, RowOpens p e → e.ledger ≠ claim.updatedAtLedger := by
    simp only [List.forall_mem_map, entryOf_opens, entryOf_ledger]
  have hnewOutcome : (∀ e ∈ rows.map (entryOf p), rowOutcome claim = some e.kind →
      e.ledger ≠ claim.updatedAtLedger) ↔
      ∀ e ∈ rows, rowOutcome claim = some (normalizedWord (rowStatus p e)) →
        e.ledger ≠ claim.updatedAtLedger := by
    simp only [List.forall_mem_map, entryOf_kind, entryOf_ledger]
  have hresolved : (rows.map fun e => (normalizedWord (rowStatus p e), e.ledger)).Nodup →
      ∀ outcome, rowOutcome claim = some outcome →
      (((AddsOutcome claim (rows.map (entryOf p)) ∧
          ∀ y ∈ rows.map (entryOf p), y.Opens → NotLater y (outcomeEntry claim)) ∨
        ∃ x ∈ rows.map (entryOf p), x.kind = outcome ∧
          (∀ y ∈ rows.map (entryOf p), y.Opens →
            StandsBefore claim (rows.map (entryOf p)) y x) ∧
          (AddsOpening claim (rows.map (entryOf p)) → ¬ NotLater x (openingEntry claim))) ↔
      ((OutcomeMissing p claim rows ∧ ∀ y ∈ rows, RowOpens p y → NotLaterThanRow claim y) ∨
        ∃ x ∈ rows, normalizedWord (rowStatus p x) = outcome ∧
          (∀ y ∈ rows, RowOpens p y → RowBefore claim y x) ∧
          (OpeningMissing p claim rows → LaterThanRow claim x))) := by
    intro hdistinct outcome houtcome
    rw [← distinct_map] at hdistinct
    have hnodup : (rows.map (entryOf p)).Nodup := hdistinct.of_map
    refine or_congr ?_ ?_
    · rw [addsOutcome_map]
      simp only [List.forall_mem_map, entryOf_opens]
      unfold NotLater NotLaterThanRow
      simp only [entryOf_ledger, entryOf_timestamp]
      rfl
    · rw [addsOpening_map]
      simp only [List.mem_map, exists_exists_and_eq_and, forall_exists_index, and_imp,
        forall_apply_eq_imp_iff₂]
      refine exists_congr fun x => and_congr_right fun hx => ?_
      rw [entryOf_kind]
      refine and_congr_right fun hkind => and_congr ?_ (imp_congr_right fun _ => ?_)
      · refine forall₂_congr fun y hy => ?_
        rw [entryOf_opens]
        refine imp_congr_right fun hopens => standsBefore_map_iff hrows hnodup hx hy ?_
        rintro rfl
        have hsome : rowOutcome claim = some (entryOf p x).kind := by
          rw [houtcome, entryOf_kind, hkind]
        exact not_opens_of_outcome hsome ((entryOf_opens x).mpr hopens)
      · unfold NotLater LaterThanRow openingEntry
        simp only [entryOf_ledger, entryOf_timestamp]
        omega
  constructor
  · intro h
    have hdistinct := h.distinct
    rw [distinct_map] at hdistinct
    refine ⟨?_, fun outcome hsome => (hresolved hdistinct outcome hsome).mp
      (h.resolved outcome hsome), hdistinct, ?_, ?_⟩
    · have hopened := h.opened
      rw [hcount] at hopened
      simpa only [addsOpening_map] using hopened
    · exact fun hmissing => hnewOpening.mp (h.newOpening (addsOpening_map.mpr hmissing))
    · exact fun hmissing => hnewOutcome.mp (h.newOutcome (addsOutcome_map.mpr hmissing))
  · intro h
    refine ⟨?_, fun outcome hsome => (hresolved h.distinct outcome hsome).mpr
      (h.resolved outcome hsome), ?_, ?_, ?_⟩
    · rw [hcount]
      simpa only [addsOpening_map] using h.opened
    · rw [distinct_map]
      exact h.distinct
    · exact fun hadds => hnewOpening.mpr (h.newOpening (addsOpening_map.mp hadds))
    · exact fun hadds => hnewOutcome.mpr (h.newOutcome (addsOutcome_map.mp hadds))

end

/-! ## When nothing is indexed -/

/-- The row has the words of the indexer for an outcome. -/
def AppealEnded (claim : ClaimRecord) : Prop :=
  claim.status = .appealApproved ∨ claim.status = .appealRejected

/-- At most one appeal was opened, and if it has ended, then the row, which is told to have opened
it when it was updated, was updated before it was made. -/
def NothingIndexedFits (claim : ClaimRecord) : Prop :=
  claim.appealsCount ≤ 1 ∧ (AppealEnded claim → appealed claim ∧
    (claim.updatedAtLedger < claim.createdAtLedger ∨
      claim.updatedAtLedger = claim.createdAtLedger ∧ claim.updatedAt < claim.createdAt))

/-- The entry of the status of a row. -/
def statusEntry (claim : ClaimRecord) (status : String) : ClaimTimelineEntryDto :=
  ⟨status, claim.createdAtLedger, claim.createdAt, none, none⟩

section

variable {p : Platform} {claim : ClaimRecord}

theorem lower_statusName (hp : p.Lawful) (status : ClaimStatus) :
    p.toLowerCase (statusName status) =
      String.ofList ((statusName status).toList.map Char.toLower) := by
  refine hp.ascii _ fun c hc => ?_
  have hall : (statusName status).toList.all (fun c => decide (c.toNat < 128)) = true := by
    cases status <;> rfl
  exact of_decide_eq_true (List.all_eq_true.mp hall c hc)

/-- The entries that are made of a row that was never appealed, as far as its status tells. -/
theorem fits_plain {data : List ClaimTimelineEntryDto} (hcount : 0 < claim.appealsCount)
    (hstatus : rowOutcome claim = none ∨ resolvedByRow claim)
    (hplain : ∀ e ∈ data, e.status = "pending" ∨ e.status = "approved" ∨ e.status = "rejected" ∨
      e.status = "paid")
    (hdistinct : (data.map fun e => (e.kind, e.ledger)).Nodup) :
    Fits claim data ↔ claim.appealsCount ≤ 1 := by
  have hkinds : ∀ e ∈ data, ¬ e.Opens ∧ e.status ≠ "under_appeal" ∧
      (e.status ≠ "appeal_approved" ∧ e.status ≠ "appeal_rejected") ∧
      rowOutcome claim ≠ some e.kind := by
    intro e he
    have houtcomes : ∀ k, rowOutcome claim = some k →
        k = "appealapproved".toList ∨ k = "appealrejected".toList := by
      intro k hk
      unfold rowOutcome at hk
      split at hk
      case h_1 => exact .inl (Option.some.inj hk).symm
      case h_2 => exact .inr (Option.some.inj hk).symm
      case h_3 =>
        rw [if_pos hcount] at hk
        exact .inl (Option.some.inj hk).symm
      case h_4 =>
        rw [if_pos hcount] at hk
        exact .inr (Option.some.inj hk).symm
      case h_5 => cases hk
    unfold ClaimTimelineEntryDto.Opens
    refine ⟨?_, ?_, ?_, fun hsome => ?_⟩
    · unfold ClaimTimelineEntryDto.kind
      rcases hplain e he with h | h | h | h <;> rw [h] <;> decide
    · rcases hplain e he with h | h | h | h <;> rw [h] <;> decide
    · rcases hplain e he with h | h | h | h <;> rw [h] <;> decide
    · have hkind := houtcomes _ hsome
      revert hkind
      unfold ClaimTimelineEntryDto.kind
      rcases hplain e he with h | h | h | h <;> rw [h] <;> decide
  have hadds : AddsOpening claim data := ⟨.inl hcount, fun e he => (hkinds e he).2.1⟩
  have hzero : data.countP (fun e => decide e.Opens) = 0 := by
    refine List.countP_eq_zero.mpr fun e he => ?_
    rw [decide_eq_true_eq]
    exact (hkinds e he).1
  constructor
  · intro h
    have hopened := h.opened
    rw [hzero, if_pos hadds] at hopened
    unfold appealsOpened at hopened
    omega
  · intro hle
    refine ⟨?_, fun outcome hsome => .inl ⟨?_, fun y hy hopens => ?_⟩, hdistinct,
      fun _ e he hopens => absurd hopens (hkinds e he).1,
      fun _ e he hsome => absurd hsome (hkinds e he).2.2.2⟩
    · rw [hzero, if_pos hadds]
      unfold appealsOpened
      omega
    · refine ⟨hstatus.resolve_left fun hnone => ?_, fun e he => (hkinds e he).2.2.1⟩
      rw [hnone] at hsome
      cases hsome
    · exact absurd hopens (hkinds y hy).1

/-- The kind of an entry, and whether it opens an appeal, are those of its status. -/
theorem kind_statusEntry (claim : ClaimRecord) (status : String) :
    (statusEntry claim status).kind = normalizedWord status := rfl

theorem opens_statusEntry (claim : ClaimRecord) (status : String) :
    (statusEntry claim status).Opens ↔ normalizedWord status = "underappeal".toList := Iff.rfl

theorem fits_underAppeal (hstatus : claim.status = .underAppeal) :
    Fits claim [statusEntry claim "pending", statusEntry claim "under_appeal"] ↔
      claim.appealsCount ≤ 1 := by
  have hpending : ¬ (statusEntry claim "pending").Opens := by
    rw [opens_statusEntry]
    decide
  have hopens : (statusEntry claim "under_appeal").Opens := by
    rw [opens_statusEntry]
    decide
  have hadds : ¬ AddsOpening claim [statusEntry claim "pending",
      statusEntry claim "under_appeal"] :=
    fun h => h.2 (statusEntry claim "under_appeal") (by simp) rfl
  have hadds' : ¬ AddsOutcome claim [statusEntry claim "pending",
      statusEntry claim "under_appeal"] := by
    rintro ⟨⟨h | h, -⟩, -⟩ <;> rw [hstatus] at h <;> cases h
  have hcount : [statusEntry claim "pending", statusEntry claim "under_appeal"].countP
      (fun e => decide e.Opens) = 1 := by
    rw [List.countP_cons_of_neg (by simpa using hpending),
      List.countP_cons_of_pos (by simpa using hopens), List.countP_nil]
  have hnone : rowOutcome claim = none := by
    unfold rowOutcome
    rw [hstatus]
  constructor
  · intro h
    have hopened := h.opened
    rw [hcount, if_neg hadds] at hopened
    unfold appealsOpened at hopened
    omega
  · intro hle
    refine ⟨?_, fun outcome hsome => ?_, ?_, fun h => absurd h hadds, fun h => absurd h hadds'⟩
    · rw [hcount, if_neg hadds]
      unfold appealsOpened
      omega
    · rw [hnone] at hsome
      cases hsome
    · have hne : normalizedWord "pending" ≠ normalizedWord "under_appeal" := by decide
      simp [kind_statusEntry, hne]

theorem fits_ended {status : String} (hended : AppealEnded claim)
    (hkind : rowOutcome claim = some (normalizedWord status))
    (hword : status = "appeal_approved" ∨ status = "appeal_rejected") :
    Fits claim [statusEntry claim "pending", statusEntry claim status] ↔
      claim.appealsCount ≤ 1 ∧ appealed claim ∧
        (claim.updatedAtLedger < claim.createdAtLedger ∨
          claim.updatedAtLedger = claim.createdAtLedger ∧ claim.updatedAt < claim.createdAt) := by
  have hpending : ¬ (statusEntry claim "pending").Opens := by
    rw [opens_statusEntry]
    decide
  have hopens : ¬ (statusEntry claim status).Opens := not_opens_of_outcome hkind
  have hnotopens : ∀ e ∈ [statusEntry claim "pending", statusEntry claim status], ¬ e.Opens := by
    intro e he
    rcases List.mem_pair.mp he with rfl | rfl
    · exact hpending
    · exact hopens
  have hadds : AddsOpening claim [statusEntry claim "pending", statusEntry claim status] ↔
      appealed claim := by
    refine and_iff_left fun e he hname => hnotopens e he ?_
    unfold ClaimTimelineEntryDto.Opens ClaimTimelineEntryDto.kind
    rw [hname]
    decide
  have hadds' : ¬ AddsOutcome claim [statusEntry claim "pending", statusEntry claim status] := by
    rintro ⟨⟨h | h, -⟩, -⟩ <;> obtain hstatus | hstatus := hended <;> rw [hstatus] at h <;> cases h
  have hcount : [statusEntry claim "pending", statusEntry claim status].countP
      (fun e => decide e.Opens) = 0 := by
    refine List.countP_eq_zero.mpr fun e he => ?_
    rw [decide_eq_true_eq]
    exact hnotopens e he
  have hne : normalizedWord "pending" ≠ normalizedWord status := by
    rcases hword with rfl | rfl <;> decide
  -- the row's entry is the outcome, and the opening is made of the row
  have hlater : ¬ NotLater (statusEntry claim status) (openingEntry claim) ↔
      (claim.updatedAtLedger < claim.createdAtLedger ∨
        claim.updatedAtLedger = claim.createdAtLedger ∧ claim.updatedAt < claim.createdAt) := by
    unfold NotLater statusEntry openingEntry
    dsimp only
    omega
  constructor
  · intro h
    have hopened := h.opened
    rw [hcount] at hopened
    have happealed : appealed claim := by
      by_contra hnot
      rw [if_neg (mt hadds.mp hnot)] at hopened
      unfold appealsOpened at hopened
      omega
    rw [if_pos (hadds.mpr happealed)] at hopened
    unfold appealsOpened at hopened
    refine ⟨by omega, happealed, ?_⟩
    rcases h.resolved _ hkind with ⟨h', -⟩ | ⟨x, hx, hxkind, -, hnew⟩
    · exact absurd h' hadds'
    · rcases List.mem_pair.mp hx with rfl | rfl
      · exact absurd hxkind hne
      · exact hlater.mp (hnew (hadds.mpr happealed))
  · rintro ⟨hle, happealed, hbefore⟩
    refine ⟨?_, fun outcome hsome => .inr ⟨statusEntry claim status, by simp, ?_,
      fun y hy hy' => absurd hy' (hnotopens y hy), fun _ => hlater.mpr hbefore⟩, ?_,
      fun _ e he he' => absurd he' (hnotopens e he), fun h => absurd h hadds'⟩
    · rw [hcount, if_pos (hadds.mpr happealed)]
      unfold appealsOpened
      omega
    · exact Option.some.inj (hkind.symm.trans hsome)
    · simp [kind_statusEntry, hne]

theorem synthesizedTimeline_eq (hp : p.Lawful) (claim : ClaimRecord) :
    synthesizedTimeline p claim =
      match claim.status with
      | .pending => [statusEntry claim "pending"]
      | .approved => [statusEntry claim "pending", statusEntry claim "approved"]
      | .paid => [statusEntry claim "pending", statusEntry claim "paid"]
      | .rejected => [statusEntry claim "pending", statusEntry claim "rejected"]
      | .underAppeal => [statusEntry claim "pending", statusEntry claim "under_appeal"]
      | .appealApproved => [statusEntry claim "pending", statusEntry claim "appeal_approved"]
      | .appealRejected => [statusEntry claim "pending", statusEntry claim "appeal_rejected"] := by
  unfold synthesizedTimeline
  rw [lower_statusName hp]
  have hlower : ∀ status, String.ofList ((statusName status).toList.map Char.toLower) =
      match status with
      | .pending => "pending"
      | .approved => "approved"
      | .paid => "paid"
      | .rejected => "rejected"
      | .underAppeal => "under_appeal"
      | .appealApproved => "appeal_approved"
      | .appealRejected => "appeal_rejected" := by
    intro status
    cases status <;> decide
  rw [hlower]
  cases claim.status <;> rfl

/-- **The condition, when no event is indexed.** -/
theorem fits_synthesizedTimeline_iff (hp : p.Lawful) (happeal : ReflectsAppeal claim) :
    Fits claim (synthesizedTimeline p claim) ↔ NothingIndexedFits claim := by
  rw [synthesizedTimeline_eq hp]
  by_cases hended : AppealEnded claim
  · -- the row's own entry is the outcome
    have hfits : NothingIndexedFits claim ↔ claim.appealsCount ≤ 1 ∧ appealed claim ∧
        (claim.updatedAtLedger < claim.createdAtLedger ∨
          claim.updatedAtLedger = claim.createdAtLedger ∧ claim.updatedAt < claim.createdAt) := by
      unfold NothingIndexedFits
      rw [forall_prop_of_true hended]
    rw [hfits]
    rcases id hended with hstatus | hstatus
    · rw [hstatus]
      refine fits_ended hended ?_ (.inl rfl)
      have hword : "appealapproved".toList = normalizedWord "appeal_approved" := by decide
      unfold rowOutcome
      rw [hstatus, ← hword]
    · rw [hstatus]
      refine fits_ended hended ?_ (.inr rfl)
      have hword : "appealrejected".toList = normalizedWord "appeal_rejected" := by decide
      unfold rowOutcome
      rw [hstatus, ← hword]
  · have hfits : NothingIndexedFits claim ↔ claim.appealsCount ≤ 1 :=
      ⟨fun h => h.1, fun h => ⟨h, fun h' => absurd h' hended⟩⟩
    rw [hfits]
    have hcount : claim.status ≠ .underAppeal → 0 < claim.appealsCount := by
      intro hne
      rcases happeal with h | h | h | h
      · exact absurd h hne
      · exact absurd (.inl h) hended
      · exact absurd (.inr h) hended
      · exact h
    cases hstatus : claim.status with
    | underAppeal => exact fits_underAppeal hstatus
    | appealApproved => exact absurd (.inl hstatus) hended
    | appealRejected => exact absurd (.inr hstatus) hended
    | pending =>
      replace hcount := hcount (by simp [hstatus])
      refine fits_plain hcount (.inl ?_) (by simp [statusEntry]) (by simp)
      unfold rowOutcome
      rw [hstatus]
    | approved =>
      replace hcount := hcount (by simp [hstatus])
      have hne : normalizedWord "pending" ≠ normalizedWord "approved" := by decide
      exact fits_plain hcount (.inr ⟨.inl hstatus, hcount⟩) (by simp [statusEntry])
        (by simp [kind_statusEntry, hne])
    | paid =>
      replace hcount := hcount (by simp [hstatus])
      have hne : normalizedWord "pending" ≠ normalizedWord "paid" := by decide
      refine fits_plain hcount (.inl ?_) (by simp [statusEntry]) (by simp [kind_statusEntry, hne])
      unfold rowOutcome
      rw [hstatus]
    | rejected =>
      replace hcount := hcount (by simp [hstatus])
      have hne : normalizedWord "pending" ≠ normalizedWord "rejected" := by decide
      exact fits_plain hcount (.inr ⟨.inr hstatus, hcount⟩) (by simp [statusEntry])
        (by simp [kind_statusEntry, hne])

end

/-! ## When the timeline is complete -/

section

variable {p : Platform} {db : HistoryDb} {tenantId : Option String} {claimId : Nat}
  {claim : ClaimRecord}

theorem timelineEntry_eq {e : RawEventRow} (h : e.data ≠ .null) :
    timelineEntry p e = some (entryOf p e) := by
  obtain ⟨entry, hentry⟩ := Option.ne_none_iff_exists'.mp (mt timelineEntry_eq_none_iff.mp h)
  rw [entryOf, hentry]
  rfl

theorem mapM_timelineEntry {rows : List RawEventRow} (h : ∀ e ∈ rows, e.data ≠ .null) :
    rows.mapM (timelineEntry p) = some (rows.map (entryOf p)) := by
  rw [mapM_eq_some_iff, List.map_map]
  exact List.map_congr_left fun e he => timelineEntry_eq (h e he)

/-- **When the timeline of an appealed claim is complete**, whatever events are indexed: with events
by `IndexedFits`, without any by `NothingIndexedFits`. -/
theorem timeline_complete_iff (hp : p.Lawful) (hclaim : db.findClaim tenantId claimId = some claim)
    (happeal : ReflectsAppeal claim) :
    (∃ l, getTimeline p db tenantId claimId = .ok l ∧ TimelineComplete claim l) ↔
      (timelineRows db claim = [] ∧ NothingIndexedFits claim) ∨
      (timelineRows db claim ≠ [] ∧ (∀ e ∈ timelineRows db claim, e.data ≠ .null) ∧
        IndexedFits p claim (timelineRows db claim)) := by
  have hrows := pairwise_findEvents db
  unfold getTimeline
  rw [hclaim]
  dsimp only
  by_cases hnull : ∀ e ∈ timelineRows db claim, e.data ≠ .null
  case neg =>
    -- an entry cannot be made
    have hnone : (timelineRows db claim).mapM (timelineEntry p) = none := by
      refine Option.eq_none_iff_forall_ne_some.mpr fun data hdata => hnull ?_
      intro e he
      exact mt timelineEntry_eq_none_iff.mpr (exists_mapM_iff.mp ⟨data, hdata⟩ e he)
    rw [hnone]
    refine iff_of_false (fun ⟨_, h, _⟩ => nomatch h) ?_
    rintro (⟨hnil, -⟩ | ⟨-, hall, -⟩)
    · exact hnull (by simp [hnil])
    · exact hnull hall
  rw [mapM_timelineEntry hnull]
  dsimp only
  by_cases hnil : timelineRows db claim = []
  · have hsorted : (synthesizedTimeline p claim).Pairwise fun a b => a.ledger ≤ b.ledger := by
      unfold synthesizedTimeline
      split <;> simp
    have hfits := (complete_appendSynthetic_iff hsorted).trans
      (fits_synthesizedTimeline_iff hp happeal)
    rw [hnil, List.map_nil, if_pos List.length_nil, List.nil_append]
    constructor
    · rintro ⟨l, hl, hcomplete⟩
      obtain rfl := Except.ok.inj hl
      exact .inl ⟨rfl, hfits.mp hcomplete⟩
    · rintro (⟨-, h⟩ | ⟨h, -⟩)
      · exact ⟨_, rfl, hfits.mpr h⟩
      · exact absurd rfl h
  · have hlength : ((timelineRows db claim).map (entryOf p)).length ≠ 0 := by
      rw [List.length_map]
      exact fun h => hnil (List.length_eq_zero_iff.mp h)
    have hsorted : ((timelineRows db claim).map (entryOf p)).Pairwise fun a b =>
        a.ledger ≤ b.ledger := by
      refine List.pairwise_map.mpr ((hrows _).imp fun hbefore => ?_)
      rw [entryOf_ledger, entryOf_ledger]
      omega
    have hfits : TimelineComplete claim (appendSyntheticAppealTransitions claim
        ((timelineRows db claim).map (entryOf p))) ↔ IndexedFits p claim (timelineRows db claim) :=
      (complete_appendSynthetic_iff hsorted).trans (fits_map_iff (hrows _))
    rw [if_neg hlength]
    constructor
    · rintro ⟨l, hl, hcomplete⟩
      obtain rfl := Except.ok.inj hl
      exact .inr ⟨hnil, hnull, hfits.mp hcomplete⟩
    · rintro (⟨h, -⟩ | ⟨-, -, h⟩)
      · exact absurd h hnil
      · exact ⟨_, rfl, hfits.mpr h⟩

end

/-! ## An approved appeal -/

/-- It was rejected, appealed against once, and approved. -/
def approvedAppeal : ClaimRecord where
  id := 42
  tenantId := none
  deletedAt := none
  txHash := some "tx1"
  createdAtLedger := 100
  createdAt := 1000
  status := .appealApproved
  appealsCount := 1
  appealTxHash := some "tx-appeal"
  updatedAt := 4000
  updatedAtLedger := 400

def filedEvent : RawEventRow :=
  ⟨1, "tx1", 100, 1000, some "claim_filed", none, none, none, .members []⟩

def rejectedEvent : RawEventRow :=
  ⟨2, "tx1", 200, 2000, some "claim_rejected", none, none, none, .members []⟩

def openedEvent : RawEventRow :=
  ⟨3, "tx-appeal", 300, 3000, some "niffyinsure", some "appeal_opened", some "42", none,
    .members [("claimant", .string "GCLAIMANT")]⟩

def resolvedEvent : RawEventRow :=
  ⟨4, "tx-appeal-done", 400, 4000, some "niffyinsure", some "appeal_resolved", some "42", none,
    .members [("claimant", .string "GCLAIMANT"), ("outcome", .string "AppealApproved")]⟩

/-- All events are indexed. -/
def indexedAppeal : HistoryDb where
  claims := [approvedAppeal]
  rawEvents := [filedEvent, rejectedEvent, openedEvent, resolvedEvent]
  distinct := by decide

/-- Those of the appeal are not. -/
def unindexedAppeal : HistoryDb where
  claims := [approvedAppeal]
  rawEvents := [filedEvent, rejectedEvent]
  distinct := by decide

theorem demoPlatform_lawful : demoPlatform.Lawful where
  ascii _ _ := rfl

theorem timeline_complete_when_indexed :
    ∃ l, getTimeline demoPlatform indexedAppeal none 42 = .ok l ∧
      TimelineComplete approvedAppeal l := by
  have hclaim : indexedAppeal.findClaim none 42 = some approvedAppeal := by decide
  have hrows : timelineRows indexedAppeal approvedAppeal =
      [filedEvent, rejectedEvent, openedEvent, resolvedEvent] := by decide
  refine (timeline_complete_iff demoPlatform_lawful hclaim (.inr (.inl rfl))).mpr (.inr ?_)
  rw [hrows]
  refine ⟨by decide, by decide, by decide, fun outcome houtcome =>
    .inr ⟨resolvedEvent, by decide, ?_, by decide, fun h => absurd h (by decide)⟩, by decide,
    fun h => absurd h (by decide), fun h => absurd h (by decide)⟩
  have hkind : rowOutcome approvedAppeal =
      some (normalizedWord (rowStatus demoPlatform resolvedEvent)) := by decide
  exact Option.some.inj (hkind.symm.trans houtcome)

/-- An opening is made of the row, and no outcome. -/
theorem timeline_lacks_outcome :
    (getTimeline demoPlatform unindexedAppeal none 42).toOption.map
        (fun l => l.map fun e => (e.status, e.ledger)) =
      some [("pending", 100), ("rejected", 200), ("under_appeal", 400)] ∧
    ¬ ∃ l, getTimeline demoPlatform unindexedAppeal none 42 = .ok l ∧
      TimelineComplete approvedAppeal l := by
  have hlist : (getTimeline demoPlatform unindexedAppeal none 42).toOption.map
      (fun l => l.map fun e => (e.status, e.ledger)) =
      some [("pending", 100), ("rejected", 200), ("under_appeal", 400)] := by decide
  refine ⟨hlist, ?_⟩
  rintro ⟨l, hl, hcomplete⟩
  rw [hl] at hlist
  have hstatuses : l.map (fun e => (e.status, e.ledger)) =
      [("pending", 100), ("rejected", 200), ("under_appeal", 400)] := Option.some.inj hlist
  obtain ⟨front, x, back, rfl, hkind, -⟩ := hcomplete.resolved _ rfl
  have hmem : (x.status, x.ledger) ∈ [("pending", 100), ("rejected", 200),
      ("under_appeal", 400)] := by
    rw [← hstatuses]
    exact List.mem_map_of_mem (List.mem_append_right _ List.mem_cons_self)
  have hnone : ∀ k ∈ [("pending", 100), ("rejected", 200), ("under_appeal", 400)],
      normalizedWord k.1 ≠ "appealapproved".toList := by decide
  exact hnone _ hmem hkind

end NiffyInsure.Backend.ClaimTimeline
