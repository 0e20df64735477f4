import NiffyInsure.Backend.Database
import NiffyInsure.Lib.JsString
import NiffyInsure.Lib.Paging
import Mathlib.Data.List.Sort

/-!
# The history of a claim

`getHistory` of `claim-history.service.ts` reads the raw events of a claim page by page.  The clause
that a cursor puts into the query has the key `OR`, and so has the clause for the topics, which
stands behind it in the same object.

* `admits_historyWhere`: the cursor plays no part in the query.
* `getHistory_of_more`, `getHistory_of_all`: what a page is.
* `history_complete_iff`: the cursors lead through all events exactly if one page holds them.
-/

namespace NiffyInsure.Backend.ClaimHistory

open Paging

/-! ## The rows -/

/-- A member of a JSON object: missing or null, a string, or anything else. -/
inductive JsonField where
  | nullish
  | string (s : String)
  | other
  deriving DecidableEq

/-- `typeof field === 'string' ? field : undefined`. -/
def JsonField.string? : JsonField → Option String
  | string s => some s
  | _ => none

abbrev Fields := List (String × JsonField)

/-- `data[key]`, of an object. -/
def Fields.get (fields : Fields) (key : String) : JsonField := (fields.lookup key).getD .nullish

/-- The JSON of an event: `null`, of which no member can be read, or anything else. -/
inductive EventData where
  | null
  | members (fields : Fields)
  deriving DecidableEq

/-- `data[key]`; of `null` this throws. -/
def EventData.get? : EventData → String → Option JsonField
  | null, _ => none
  | members fields, key => some (fields.get key)

/-- A row of `raw_events`.  A date is kept as its milliseconds. -/
structure RawEventRow where
  id : Nat
  txHash : String
  ledger : Nat
  ledgerClosedAt : Int
  topic1 : Option String
  topic2 : Option String
  topic3 : Option String
  topic4 : Option String
  data : EventData
  deriving DecidableEq

/-- The columns of a claim that are selected, or asked for by the query. -/
structure ClaimRecord where
  id : Nat
  tenantId : Option String
  deletedAt : Option Int
  txHash : Option String
  createdAtLedger : Nat
  createdAt : Int
  status : ClaimStatus
  appealsCount : Nat
  appealTxHash : Option String
  updatedAt : Int
  updatedAtLedger : Nat
  deriving DecidableEq

/-- The tables.  The ids of the events are a sequence. -/
structure HistoryDb where
  claims : List ClaimRecord
  rawEvents : List RawEventRow
  distinct : (rawEvents.map RawEventRow.id).Nodup

/-- The name of a status in the schema. -/
def statusName : ClaimStatus → String
  | .pending => "PENDING"
  | .approved => "APPROVED"
  | .paid => "PAID"
  | .rejected => "REJECTED"
  | .underAppeal => "UNDER_APPEAL"
  | .appealApproved => "APPEAL_APPROVED"
  | .appealRejected => "APPEAL_REJECTED"

/-- What is used of the platform: `toLowerCase`, and the reading of a cursor, where `none` is an
exception and a member that is not there is `none`. -/
structure Platform where
  toLowerCase : String → String
  decodeCursor : String → Option (Option Int × Option Int)

/-- What is relied on: the small letters of ASCII. -/
structure Platform.Lawful (p : Platform) : Prop where
  ascii : ∀ s : String, (∀ c ∈ s.toList, c.toNat < 128) →
    p.toLowerCase s = String.ofList (s.toList.map Char.toLower)

/-! ## Queries -/

/-- `claimTenantWhere`, without the id. -/
def ClaimRecord.visible (claim : ClaimRecord) (tenantId : Option String) : Bool :=
  (tenantId.filter (· ≠ "")).all (fun t => claim.tenantId = some t) && claim.deletedAt.isNone

namespace HistoryDb

variable (db : HistoryDb)

/-- `claim.findFirst`. -/
def findClaim (tenantId : Option String) (claimId : Nat) : Option ClaimRecord :=
  db.claims.find? fun claim => claim.visible tenantId && decide (claim.id = claimId)

end HistoryDb

/-- `ORDER BY ledger ASC, id ASC`. -/
def InOrder (e e' : RawEventRow) : Prop := e.ledger < e'.ledger ∨ e.ledger = e'.ledger ∧
    e.id ≤ e'.id

instance : DecidableRel InOrder := fun _ _ => inferInstanceAs (Decidable (_ ∨ _))

/-- `rawEvent.findMany` without `take`. -/
def HistoryDb.findEvents (db : HistoryDb) (admits : RawEventRow → Bool) : List RawEventRow :=
  (db.rawEvents.filter admits).insertionSort InOrder

instance : IsTrans RawEventRow InOrder where
  trans a b c hab hbc := by
    unfold InOrder at hab hbc ⊢
    omega

instance : Std.Total InOrder where
  total a b := by
    unfold InOrder
    omega

theorem pairwise_findEvents (db : HistoryDb) (admits : RawEventRow → Bool) :
    (db.findEvents admits).Pairwise fun e e' =>
      e.ledger < e'.ledger ∨ e.ledger = e'.ledger ∧ e.id < e'.id := by
  have hids : ((db.findEvents admits).map RawEventRow.id).Nodup := by
    unfold HistoryDb.findEvents
    rw [((List.perm_insertionSort _ _).map RawEventRow.id).nodup_iff]
    exact db.distinct.sublist (List.filter_sublist.map RawEventRow.id)
  have hsorted : (db.findEvents admits).Pairwise InOrder := List.pairwise_insertionSort _ _
  refine (hsorted.and (List.pairwise_map.mp hids)).imp ?_
  rintro e e' ⟨hle, hne⟩
  unfold InOrder at hle
  omega

/-- A condition of an `OR`. -/
inductive EventCondition where
  | ledgerAfter (ledger : Int)
  | ledgerAt (ledger idAfter : Int)
  | topic1 (t : String)

def EventCondition.holds (e : RawEventRow) : EventCondition → Bool
  | ledgerAfter ledger => decide (ledger < e.ledger)
  | ledgerAt ledger idAfter => decide ((e.ledger : Int) = ledger ∧ idAfter < e.id)
  | topic1 t => decide (e.topic1 = some t)

/-- The object of a `where`: a key that is `undefined`, or not there, asks for nothing. -/
structure EventWhere where
  txHash : Option String
  or : Option (List EventCondition)

def EventWhere.admits (w : EventWhere) (e : RawEventRow) : Bool :=
  w.txHash.all (fun h => decide (e.txHash = h)) && w.or.all fun l => l.any fun c => c.holds e

/-! ## `getHistory` -/

def LEGACY_TOPICS : List String :=
  ["claim_pd", "claim_filed", "claim_approved", "claim_rejected", "claim_withdrawn"]

/-- `ClaimHistoryEntry`. -/
structure ClaimHistoryEntry where
  status : String
  ledger : Nat
  timestamp : Int
  actor : Option String
  reason : Option String
  deriving DecidableEq

/-- `ClaimHistoryPage`. -/
structure ClaimHistoryPage where
  data : List ClaimHistoryEntry
  nextCursor : Option String

/-- What is thrown: `NotFoundException`, or the `TypeError` of a member of `null`. -/
inductive HistoryFault where
  | notFound (claimId : Nat)
  | typeError
  deriving DecidableEq

def HistoryFault.message : HistoryFault → String
  | notFound claimId => "Claim " ++ toString claimId ++ " not found"
  | typeError => "Cannot read properties of null"

section

variable (p : Platform)

/-- `mapTopicToStatus`. -/
def mapTopicToStatus (topic : String) : String :=
  if topic = "claim_filed" then "pending"
  else if topic = "claim_approved" then "approved"
  else if topic = "claim_pd" ∨ topic = "claim_paid" then "paid"
  else if topic = "claim_rejected" then "rejected"
  else p.toLowerCase topic

/-- The entry of an event. -/
def historyEntry (e : RawEventRow) : Option ClaimHistoryEntry := do
  let actor ← e.data.get? "actor"
  let reason ← e.data.get? "reason"
  return ⟨mapTopicToStatus p (e.topic1.getD ""), e.ledger, e.ledgerClosedAt, actor.string?,
    reason.string?⟩

/-- The entries that are made of the claim itself. -/
def synthesizedHistory (claim : ClaimRecord) : List ClaimHistoryEntry :=
  ⟨"pending", claim.createdAtLedger, claim.createdAt, none, none⟩ ::
    if claim.status ≠ .pending then
      [⟨p.toLowerCase (statusName claim.status), claim.createdAtLedger,
        claim.createdAt, none, none⟩]
    else []

/-- The cursor behind an event. -/
def historyCursor (last : RawEventRow) : String :=
  Js.base64url ("\x7b\"ledger\":" ++ toString last.ledger ++ ",\"id\":" ++
    toString last.id ++ "\x7d")

/-- The `where` of the query: the members of the object one after the other. -/
def historyWhere (claim : ClaimRecord) (cursor : Option String) : EventWhere :=
  let decoded := (cursor.filter (· ≠ "")).bind p.decodeCursor
  let w : EventWhere := ⟨claim.txHash, none⟩
  let w := match decoded with
    | some (some afterLedger, some afterId) =>
      { w with or := some [.ledgerAfter afterLedger, .ledgerAt afterLedger afterId] }
    | _ => w
  -- the same key again
  { w with or := some (LEGACY_TOPICS.map .topic1) }

/-- `take`, of a limit that is 20 where there is none. -/
def historyTake (limit : Option Int) : Int := min (max 1 (limit.getD 20)) 100

/-- `getHistory`. -/
def getHistory (db : HistoryDb) (tenantId : Option String) (claimId : Nat) (limit : Option Int)
    (cursor : Option String) : Except HistoryFault ClaimHistoryPage :=
  match db.findClaim tenantId claimId with
  | none => .error (.notFound claimId)
  | some claim =>
    let take := historyTake limit
    let events := (db.findEvents (historyWhere p claim cursor).admits).take (take + 1).toNat
    let hasMore := decide (take < events.length)
    let page := if hasMore then events.take take.toNat else events
    match page.mapM (historyEntry p) with
    | none => .error .typeError
    | some data =>
      let data := if data.length = 0 ∧ cursor.filter (· ≠ "") = none then
          data ++ synthesizedHistory p claim
        else data
      let nextCursor := if hasMore ∧ 0 < page.length then page.getLast?.map historyCursor else none
      .ok ⟨data, nextCursor⟩

end

/-! ## What a page is -/

/-- The events of a claim: those of its transaction that have one of the topics, in order. -/
def HistoryDb.history (db : HistoryDb) (claim : ClaimRecord) : List RawEventRow :=
  db.findEvents fun e => claim.txHash.all (fun h => decide (e.txHash = h)) &&
    LEGACY_TOPICS.any fun t => decide (e.topic1 = some t)

section

variable {α β : Type} {f : α → Option β}

theorem mapM_eq_some_iff {l : List α} {l' : List β} :
    l.mapM f = some l' ↔ l.map f = l'.map some := by
  induction l generalizing l' with
  | nil => cases l' <;> simp
  | cons x l ih =>
    simp only [List.mapM_cons, Option.bind_eq_bind, Option.bind_eq_some_iff, Option.pure_def,
      Option.some.injEq, List.map_cons, ih]
    cases l' with
    | nil => simp
    | cons y' l' =>
      rw [List.map_cons, List.cons.injEq]
      constructor
      · rintro ⟨y, hy, ys, hys, h⟩
        obtain ⟨rfl, rfl⟩ := List.cons.inj h
        exact ⟨hy, hys⟩
      · rintro ⟨hy, hl⟩
        exact ⟨y', hy, l', hl, rfl⟩

theorem exists_mapM_iff {l : List α} : (∃ l', l.mapM f = some l') ↔ ∀ x ∈ l, f x ≠ none := by
  constructor
  · rintro ⟨l', h⟩ x hx hnone
    have hmem : f x ∈ l'.map some := by
      rw [← mapM_eq_some_iff.mp h]
      exact List.mem_map_of_mem hx
    rw [hnone] at hmem
    obtain ⟨_, -, h⟩ := List.mem_map.mp hmem
    cases h
  · intro h
    induction l with
    | nil => exact ⟨[], rfl⟩
    | cons x l ih =>
      obtain ⟨l', hl'⟩ := ih fun y hy => h y (List.mem_cons_of_mem _ hy)
      obtain ⟨y, hy⟩ := Option.ne_none_iff_exists'.mp (h x List.mem_cons_self)
      refine ⟨y :: l', ?_⟩
      rw [mapM_eq_some_iff, List.map_cons, hy, mapM_eq_some_iff.mp hl', List.map_cons]

end

section

variable {p : Platform} {db : HistoryDb} {tenantId : Option String} {claimId : Nat}
  {claim : ClaimRecord} {limit : Option Int}

theorem historyEntry_eq_none_iff {e : RawEventRow} : historyEntry p e = none ↔ e.data = .null := by
  unfold historyEntry
  cases e.data with
  | null => exact iff_of_true rfl rfl
  | members fields => exact iff_of_false nofun nofun

/-- **The clause of the cursor is not in the query.** -/
theorem admits_historyWhere (claim : ClaimRecord) (cursor : Option String) :
    db.findEvents (historyWhere p claim cursor).admits = db.history claim := by
  have hwhere : historyWhere p claim cursor = ⟨claim.txHash, some (LEGACY_TOPICS.map .topic1)⟩ := by
    unfold historyWhere
    dsimp only
    split <;> rfl
  rw [hwhere]
  rfl

theorem one_le_historyTake (limit : Option Int) : 1 ≤ historyTake limit := by
  unfold historyTake
  omega

theorem getHistory_of_more (hclaim : db.findClaim tenantId claimId = some claim)
    (hmore : historyTake limit < (db.history claim).length) {cursor : Option String}
    {r : ClaimHistoryPage} (h : getHistory p db tenantId claimId limit cursor = .ok r) :
    r.nextCursor ≠ none := by
  have htake := one_le_historyTake limit
  unfold getHistory at h
  rw [hclaim] at h
  dsimp only at h
  rw [admits_historyWhere] at h
  have hlength : ((db.history claim).take (historyTake limit + 1).toNat).length =
      (historyTake limit + 1).toNat := by
    rw [List.length_take]
    omega
  have hpage : 0 < (((db.history claim).take (historyTake limit + 1).toNat).take
      (historyTake limit).toNat).length := by
    rw [List.length_take, hlength]
    omega
  rw [hlength, decide_eq_true (by omega), if_pos rfl] at h
  split at h
  case h_1 => cases h
  case h_2 data hdata =>
    obtain rfl := Except.ok.inj h
    dsimp only
    rw [if_pos ⟨rfl, hpage⟩]
    intro hnone
    rw [Option.map_eq_none_iff, List.getLast?_eq_none_iff] at hnone
    rw [hnone] at hpage
    cases hpage

theorem getHistory_of_all (hclaim : db.findClaim tenantId claimId = some claim)
    (hall : ((db.history claim).length : Int) ≤ historyTake limit) :
    getHistory p db tenantId claimId limit none =
      match (db.history claim).mapM (historyEntry p) with
      | none => .error .typeError
      | some data => .ok ⟨if data.length = 0 then synthesizedHistory p claim else data, none⟩ := by
  unfold getHistory
  rw [hclaim]
  dsimp only
  rw [admits_historyWhere, List.take_of_length_le (by omega), decide_eq_false (by omega)]
  split
  case h_1 hnone =>
    rw [if_neg (by simp)] at hnone
    rw [hnone]
  case h_2 data hdata =>
    rw [if_neg (by simp)] at hdata
    rw [hdata]
    dsimp only
    by_cases hzero : data.length = 0
    · rw [if_pos ⟨hzero, rfl⟩, if_pos hzero, List.length_eq_zero_iff.mp hzero, List.nil_append,
        if_neg (fun h => Bool.false_ne_true h.1)]
    · rw [if_neg (fun h => hzero h.1), if_neg hzero, if_neg (fun h => Bool.false_ne_true h.1)]

end

/-! ## Following the cursors -/

/-- The pages that a reader gets; where something is thrown there is none. -/
def historyPages (p : Platform) (db : HistoryDb) (tenantId : Option String) (claimId : Nat)
    (limit : Option Int) (cursor : Option String) :
    Option (Page ClaimHistoryEntry (Option String)) :=
  (getHistory p db tenantId claimId limit cursor).toOption.map fun r =>
    ⟨r.data, r.nextCursor.map some⟩

/-- Following the cursors comes to an end, and gives the entries of the claim's events, of each
event once and in their order.  What is given for a claim without events is not said. -/
def HistoryComplete (p : Platform) (db : HistoryDb) (tenantId : Option String) (claim : ClaimRecord)
    (limit : Option Int) : Prop :=
  ∃ l, Reads (orAgain (historyPages p db tenantId claim.id limit)) none l ∧
    (db.history claim ≠ [] → (db.history claim).map (historyEntry p) = l.map some)

section

variable {p : Platform} {db : HistoryDb} {tenantId : Option String} {claimId : Nat}
  {claim : ClaimRecord} {limit : Option Int}

theorem id_of_findClaim (hclaim : db.findClaim tenantId claimId = some claim) :
    claim.id = claimId := by
  have h := List.find?_some hclaim
  rw [Bool.and_eq_true, decide_eq_true_eq] at h
  exact h.2

theorem not_complete_of_more (hclaim : db.findClaim tenantId claimId = some claim)
    (hmore : historyTake limit < (db.history claim).length) :
    ¬ HistoryComplete p db tenantId claim limit := by
  rintro ⟨l, hreads, -⟩
  refine not_reads (fun _ => True) (fun cursor _ => ?_) trivial hreads
  rw [id_of_findClaim hclaim]
  unfold orAgain historyPages
  cases hr : getHistory p db tenantId claimId limit cursor with
  | error fault => exact ⟨cursor, rfl, trivial⟩
  | ok r =>
    obtain ⟨next, hnext⟩ := Option.ne_none_iff_exists'.mp (getHistory_of_more hclaim hmore hr)
    refine ⟨some next, ?_, trivial⟩
    show r.nextCursor.map some = _
    rw [hnext]
    rfl

/-- **When following the cursors reads the whole history**, with ties of ledgers or without: when
the events fit into one page, and each can be made an entry. -/
theorem history_complete_iff (hclaim : db.findClaim tenantId claimId = some claim) :
    HistoryComplete p db tenantId claim limit ↔
      ((db.history claim).length : Int) ≤ min (max 1 (limit.getD 20)) 100 ∧
        ∀ e ∈ db.history claim, e.data ≠ .null := by
  change _ ↔ ((db.history claim).length : Int) ≤ historyTake limit ∧ _
  by_cases hall : ((db.history claim).length : Int) ≤ historyTake limit
  case neg => exact iff_of_false (not_complete_of_more hclaim (by omega)) fun h => hall h.1
  have hfirst := getHistory_of_all (p := p) hclaim hall
  have hentries : (∃ data, (db.history claim).mapM (historyEntry p) = some data) ↔
      ∀ e ∈ db.history claim, e.data ≠ .null := by
    rw [exists_mapM_iff]
    exact forall₂_congr fun e _ => not_congr historyEntry_eq_none_iff
  rw [and_iff_right hall, ← hentries]
  constructor
  · rintro ⟨l, hreads, -⟩
    by_contra hnone
    -- the first page is asked for again and again
    refine not_reads (fun cursor => cursor = none) ?_ rfl hreads
    rintro _ rfl
    rw [id_of_findClaim hclaim]
    unfold orAgain historyPages
    rw [hfirst, Option.eq_none_iff_forall_ne_some.mpr fun data h => hnone ⟨data, h⟩]
    exact ⟨none, rfl, rfl⟩
  · rintro ⟨data, hdata⟩
    rw [hdata] at hfirst
    have hpage : orAgain (historyPages p db tenantId claim.id limit) none =
        ⟨if data.length = 0 then synthesizedHistory p claim else data, none⟩ := by
      rw [id_of_findClaim hclaim]
      unfold orAgain historyPages
      rw [hfirst]
      rfl
    have hreads : Reads (orAgain (historyPages p db tenantId claim.id limit)) none
        (orAgain (historyPages p db tenantId claim.id limit) none).items :=
      reads_last (by rw [hpage])
    rw [hpage] at hreads
    refine ⟨_, hreads, fun hne => ?_⟩
    have hmap := mapM_eq_some_iff.mp hdata
    have hlength := congrArg List.length hmap
    rw [List.length_map, List.length_map] at hlength
    have hpos := List.length_pos_iff.mpr hne
    rw [if_neg (by omega)]
    exact hmap

end

/-! ## Three events -/

/-- `toLowerCase` of ASCII, and the reading of the cursor behind the second event. -/
def demoPlatform : Platform where
  toLowerCase s := String.ofList (s.toList.map Char.toLower)
  decodeCursor cursor :=
    if cursor = "eyJsZWRnZXIiOjIwMCwiaWQiOjJ9" then some (some 200, some 2) else none

def paidClaim : ClaimRecord where
  id := 42
  tenantId := none
  deletedAt := none
  txHash := some "tx1"
  createdAtLedger := 100
  createdAt := 1000
  status := .paid
  appealsCount := 0
  appealTxHash := none
  updatedAt := 3000
  updatedAtLedger := 300

/-- It was filed, approved and paid. -/
def threeEvents : HistoryDb where
  claims := [paidClaim]
  rawEvents :=
    [⟨1, "tx1", 100, 1000, some "claim_filed", none, none, none, .members []⟩,
      ⟨2, "tx1", 200, 2000, some "claim_approved", none, none, none, .members []⟩,
      ⟨3, "tx1", 300, 3000, some "claim_pd", none, none, none, .members []⟩]
  distinct := by decide

theorem history_of_three_in_one_page :
    HistoryComplete demoPlatform threeEvents none paidClaim (some 3) := by
  have hclaim : threeEvents.findClaim none 42 = some paidClaim := by decide
  exact (history_complete_iff hclaim).mpr ⟨by decide, by decide⟩

/-- With two events a page, the second page is the first one again. -/
theorem history_repeats_first_page :
    (getHistory demoPlatform threeEvents none 42 (some 2)
        (some "eyJsZWRnZXIiOjIwMCwiaWQiOjJ9")).toOption.map (fun r => r.data) =
      some [⟨"pending", 100, 1000, none, none⟩, ⟨"approved", 200, 2000, none, none⟩] ∧
    ¬ HistoryComplete demoPlatform threeEvents none paidClaim (some 2) := by
  refine ⟨by decide, ?_⟩
  have hclaim : threeEvents.findClaim none 42 = some paidClaim := by decide
  exact not_complete_of_more hclaim (by decide)

end NiffyInsure.Backend.ClaimHistory
