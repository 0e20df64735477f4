import NiffyInsure.Expiry
import NiffyInsure.Lib.StableSort
import NiffyInsure.Lib.Table
import NiffyInsure.Lifecycle
import NiffyInsure.Obligations
import NiffyInsure.Backend.Database

/-!
# The keepers of the voting rounds

`AppealFinalizeKeeperService` calls `finalize_appeal`, and `ClaimDeadlineProcessorService` calls
`finalize_claim`.  The first compares the ledger with the deadline for opening an appeal, the second
with a constant window; the contract compares it with the voting deadlines of the claim.

* `finalizeAppeal_accepts_iff`, `finalizeClaim_accepts_iff`: when the contract refuses neither the
  window nor the status.
* `runFinalizationCycle_eq`, `mem_runScan_iff`: which claims the keepers submit.
* `keepers_exact_iff`: over a table that mirrors the contract, they submit what it accepts and miss
  nothing, exactly if the deadlines that they look at agree with those of the contract.
-/

namespace NiffyInsure.Backend.Keepers

open Table

/-- What the keepers read of a row of `claims`. -/
structure Row where
  id : Nat
  status : Backend.ClaimStatus
  isFinalized : Bool
  deletedAt : Option Nat
  createdAtLedger : Nat
  deriving DecidableEq

/-! ## The appeal keeper -/

def CLAIM_BATCH_GET_MAX : Nat := 20

/-- `simulateGetClaimsBatch`: the contract answers in the order of the ids. -/
def simulateGetClaimsBatch (s : State) (ids : List Nat) : Except String (List (Option Claim)) :=
  if CLAIM_BATCH_GET_MAX < ids.length then throw "CLAIM_BATCH_TOO_LARGE"
  else pure (ids.map s.getClaim)

/-- The loop over `claimIds` and `onChainClaims`. -/
def expiredClaims (currentLedger : Nat) : List Nat → List (Option Claim) → List Nat
  | [], _ => []
  | id :: claimIds, onChainClaims =>
    let rest := expiredClaims currentLedger claimIds onChainClaims.tail
    match onChainClaims.head?.join with
    | none => rest
    | some onChainClaim =>
      if onChainClaim.appealOpenDeadlineLedger ≤ currentLedger then id :: rest else rest

def isUnderAppeal (row : Row) : Bool := row.status = .underAppeal && row.deletedAt.isNone

/-- `runFinalizationCycle`: the claims for which it calls `finalize_appeal`.  An error ends the
cycle. -/
def runFinalizationCycle (keeperSourceAccount : String) (s : State) (rows : List Row) : List Nat :=
  if keeperSourceAccount = "" then []
  else
    let claimIds := (rows.filter isUnderAppeal).map Row.id
    match simulateGetClaimsBatch s claimIds with
    | .error _ => []
    | .ok onChainClaims => expiredClaims s.sequence claimIds onChainClaims

/-! ## The deadline processor -/

def CLAIM_VOTING_WINDOW_LEDGERS : Nat := 120960
def CLAIM_DEADLINE_BATCH_SIZE : Nat := 50

def mapOnChainStatus (status : String) : Option Backend.ClaimStatus :=
  if status.toLower = "approved" then some .approved
  else if status.toLower = "rejected" then some .rejected
  else none

/-- The `where` of the query. -/
def isExpired (currentLedger : Nat) (row : Row) : Bool :=
  row.status = .pending && !row.isFinalized && row.deletedAt.isNone &&
    decide ((row.createdAtLedger : Int) ≤ (currentLedger : Int) - CLAIM_VOTING_WINDOW_LEDGERS)

/-- `findMany`. -/
def findExpired (currentLedger : Nat) (rows : List Row) : List Row :=
  ((rows.filter (isExpired currentLedger)).insertionSort
    (·.createdAtLedger ≤ ·.createdAtLedger)).take CLAIM_DEADLINE_BATCH_SIZE

def isAlreadyTerminal (msg : String) : Bool :=
  decide ("ClaimAlreadyTerminal".toList <:+: msg.toList ∨
    "CLAIM_ALREADY_TERMINAL".toList <:+: msg.toList ∨
    "already terminal".toList <:+: msg.toLower.toList)

section Processor

-- what a call of `finalize_claim` answers: the status on the chain, or the message of the error
variable (finalizeClaim : Nat → Except String String)

/-- `processClaim`: whether it calls `finalize_claim`, and the table afterwards. -/
def processClaim (claimId : Nat) (rows : List Row) : Bool × List Row :=
  match rows.find? (·.id = claimId) with
  | none => (false, rows)
  | some existing =>
    if existing.isFinalized then (false, rows)
    else
      match finalizeClaim claimId with
      | .ok onChainStatus =>
        (true, updateWhere (·.id = claimId) (fun row =>
          { row with
            isFinalized := true, status := (mapOnChainStatus onChainStatus).getD row.status }) rows)
      | .error msg =>
        (true, if isAlreadyTerminal msg then
          updateWhere (fun row => row.id = claimId && !row.isFinalized)
            (fun row => { row with isFinalized := true }) rows
        else rows)

/-- The loop of `runScan`: the claims for which `finalize_claim` is called. -/
def processClaims : List Nat → List Row → List Nat
  | [], _ => []
  | id :: ids, rows =>
    let (called, rows₁) := processClaim finalizeClaim id rows
    if called then id :: processClaims ids rows₁ else processClaims ids rows₁

/-- `runScan`, with the last ledger that was indexed. -/
def runScan (lastProcessedLedger : Option Nat) (rows : List Row) : List Nat :=
  match lastProcessedLedger with
  | none => []
  | some currentLedger =>
    processClaims finalizeClaim ((findExpired currentLedger rows).map Row.id) rows

end Processor

/-! ## The mirror, and what the keepers are to do -/

/-- The row shows the claim: `PENDING` corresponds to `Processing` on the chain. -/
structure Shows (claim : Claim) (row : Row) : Prop where
  pending : row.status = .pending ↔ claim.status = .processing
  underAppeal : row.status = .underAppeal ↔ claim.status = .underAppeal
  isFinalized : claim.status = .processing → row.isFinalized = false
  deletedAt : row.deletedAt = none
  createdAtLedger : row.createdAtLedger = claim.filedAt

/-- One row for each claim, in some order. -/
structure Mirrors (s : State) (rows : List Row) : Prop where
  ids : (rows.map Row.id).Nodup
  shows : ∀ row ∈ rows, ∃ claim, s.getClaim row.id = some claim ∧ Shows claim row
  stored : ∀ id claim, s.getClaim id = some claim → ∃ row ∈ rows, row.id = id

/-- The call is refused neither for its window nor for the status of the claim. -/
def Accepts {α : Type} (r : Result α) : Prop :=
  r ≠ .error (.error .votingWindowStillOpen) ∧ r ≠ .error (.error .claimAlreadyTerminal)

/-- **The keepers call the contract exactly when it accepts**, within the size of a batch. -/
structure KeepersExact (keeperSourceAccount : String) (finalize : Nat → Except String String)
    (s : State) (rows : List Row) : Prop where
  appealAccepted : ∀ id ∈ runFinalizationCycle keeperSourceAccount s rows,
    Accepts (finalizeAppeal s id)
  appealSelected : ∀ id claim, s.getClaim id = some claim → claim.status = .underAppeal →
    claim.appealDeadlineLedger < s.sequence →
      id ∈ runFinalizationCycle keeperSourceAccount s rows ∨
        CLAIM_BATCH_GET_MAX ≤ (runFinalizationCycle keeperSourceAccount s rows).length
  claimAccepted : ∀ id ∈ runScan finalize (some s.sequence) rows, Accepts (finalizeClaim s id)
  claimSelected : ∀ id claim, s.getClaim id = some claim → claim.status = .processing →
    claim.votingDeadlineLedger < s.sequence →
      id ∈ runScan finalize (some s.sequence) rows ∨
        CLAIM_DEADLINE_BATCH_SIZE ≤ (runScan finalize (some s.sequence) rows).length

/-- The pause of the claims, with which every call traps. -/
def claimsPaused (s : State) : Bool := s.getPauseFlags.global || s.getPauseFlags.claimsPaused

/-- The deadline for opening an appeal agrees with the deadline of its votes. -/
structure AppealsTimed (s : State) (rows : List Row) : Prop where
  early : claimsPaused s = false → (rows.filter isUnderAppeal).length ≤ CLAIM_BATCH_GET_MAX →
    ∀ id claim, s.getClaim id = some claim → claim.status = .underAppeal →
      claim.appealOpenDeadlineLedger ≤ s.sequence → claim.appealDeadlineLedger < s.sequence
  late : ∀ id claim, s.getClaim id = some claim → claim.status = .underAppeal →
    claim.appealDeadlineLedger < s.sequence →
      claim.appealOpenDeadlineLedger ≤ s.sequence ∧
        (rows.filter isUnderAppeal).length ≤ CLAIM_BATCH_GET_MAX

/-- The rows that stand before a row: filed earlier, or at its ledger and earlier in the table. -/
def ahead (rows : List Row) (row : Row) : List Row :=
  rows.filter fun other => other ≠ row ∧ (other.createdAtLedger < row.createdAtLedger ∨
    other.createdAtLedger = row.createdAtLedger ∧ [other, row].Sublist rows)

/-- The constant window agrees with the voting deadlines, for the claims of a batch. -/
structure ClaimsTimed (s : State) (rows : List Row) : Prop where
  early : claimsPaused s = false → ∀ row ∈ rows.filter (isExpired s.sequence),
    (ahead (rows.filter (isExpired s.sequence)) row).length < CLAIM_DEADLINE_BATCH_SIZE →
      ∀ claim, s.getClaim row.id = some claim → claim.votingDeadlineLedger < s.sequence
  late : ∀ id claim, s.getClaim id = some claim → claim.status = .processing →
    claim.votingDeadlineLedger < s.sequence →
      claim.filedAt + CLAIM_VOTING_WINDOW_LEDGERS ≤ s.sequence ∨
        CLAIM_DEADLINE_BATCH_SIZE ≤ (rows.filter (isExpired s.sequence)).length

/-! ## What the contract accepts -/

section Contract

variable {s : State} {claimId : Nat} {claim : Claim} {e : Fault}

theorem accepts_of_faults {α : Type} {r : Result α}
    (h : ∀ e, r = .error e → e = .trap ∨ e = .error .overflow) : Accepts r := by
  constructor
  · intro hr
    rcases h _ hr with h | h <;> cases h
  · intro hr
    rcases h _ hr with h | h <;> cases h

theorem assertClaimsNotPaused_eq :
    s.assertClaimsNotPaused = if claimsPaused s then .error .trap else .ok () := by
  unfold State.assertClaimsNotPaused ensure claimsPaused
  cases hpaused : s.getPauseFlags.global || s.getPauseFlags.claimsPaused <;> rfl

/-- **When `finalize_appeal` accepts** a claim under appeal. -/
theorem finalizeAppeal_accepts_iff (hclaim : s.getClaim claimId = some claim)
    (hst : claim.status = .underAppeal) :
    Accepts (finalizeAppeal s claimId) ↔
      (claimsPaused s = false → claim.appealDeadlineLedger < s.sequence) := by
  unfold finalizeAppeal
  rw [assertClaimsNotPaused_eq, hclaim]
  cases claimsPaused s with
  | true => exact iff_of_true ⟨nofun, nofun⟩ nofun
  | false =>
    simp only [Bool.false_eq_true, if_false, ok_bind, okOr, hst, ensure, if_true, true_implies]
    by_cases hopen : s.sequence ≤ claim.appealDeadlineLedger
    · rw [if_neg (by simpa [isClaimVotingOpen] using hopen)]
      exact iff_of_false (fun h => h.1 rfl) (Nat.not_lt.mpr hopen)
    · rw [if_pos (by simpa [isClaimVotingOpen] using hopen), ok_bind]
      refine iff_of_true (accepts_of_faults fun e he => ?_) (Nat.lt_of_not_le hopen)
      rcases bind_eq_error.mp he with he | ⟨cast, -, he⟩
      · exact .inl (add32_eq_error he)
      rcases bind_eq_error.mp he with he | ⟨⟨claim₁, s₁⟩, -, he⟩
      · exact .inr (finalizeAppealOutcome_eq_error he)
      · exact absurd he pure_ne_error

/-- **When `finalize_claim` accepts** a claim in `Processing`. -/
theorem finalizeClaim_accepts_iff (hclaim : s.getClaim claimId = some claim)
    (hst : claim.status = .processing) :
    Accepts (finalizeClaim s claimId) ↔
      (claimsPaused s = false → claim.votingDeadlineLedger < s.sequence) := by
  unfold finalizeClaim finalizeClaimInner
  rw [assertClaimsNotPaused_eq, hclaim]
  cases claimsPaused s with
  | true => exact iff_of_true ⟨nofun, nofun⟩ nofun
  | false =>
    simp only [Bool.false_eq_true, if_false, ok_bind, okOr, hst, ensure, ClaimStatus.isTerminal,
      if_true, true_implies]
    by_cases hpast : claim.votingDeadlineLedger < s.sequence
    · rw [if_pos (by simpa [isClaimPastVotingDeadline] using hpast), ok_bind]
      refine iff_of_true (accepts_of_faults fun e he => ?_) hpast
      rcases bind_eq_error.mp he with he | ⟨cast, -, he⟩
      · exact .inl (add32_eq_error he)
      rcases bind_eq_error.mp he with he | ⟨claim₁, -, he⟩
      · exact .inr (decide_eq_error he)
      rcases bind_eq_error.mp he with he | ⟨s₁, -, he⟩
      · exact .inl (closeRound_eq_error he)
      · exact absurd he pure_ne_error
    · rw [if_neg (by simpa [isClaimPastVotingDeadline] using hpast)]
      exact iff_of_false (fun h => h.1 rfl) hpast

end Contract

/-! ## What the keepers submit -/

section Submitted

variable {s : State} {rows : List Row} {keeperSourceAccount : String}
  {finalize : Nat → Except String String}

theorem expiredClaims_eq (currentLedger : Nat) (getClaim : Nat → Option Claim)
    (claimIds : List Nat) : expiredClaims currentLedger claimIds (claimIds.map getClaim) =
      claimIds.filter fun id => (getClaim id).any (·.appealOpenDeadlineLedger ≤ currentLedger) := by
  induction claimIds with
  | nil => rfl
  | cons id claimIds ih =>
    rw [List.map_cons, expiredClaims]
    simp only [List.tail_cons, List.head?_cons, Option.join_some, ih, List.filter_cons]
    cases getClaim id with
    | none => rfl
    | some claim => simp only [Option.any_some, decide_eq_true_eq]

/-- **What the appeal keeper submits**: nothing, if too many claims are under appeal. -/
theorem runFinalizationCycle_eq (haccount : keeperSourceAccount ≠ "") :
    runFinalizationCycle keeperSourceAccount s rows =
      if CLAIM_BATCH_GET_MAX < (rows.filter isUnderAppeal).length then []
      else ((rows.filter isUnderAppeal).map Row.id).filter fun id =>
        (s.getClaim id).any (·.appealOpenDeadlineLedger ≤ s.sequence) := by
  rw [runFinalizationCycle, if_neg haccount]
  simp only [simulateGetClaimsBatch, List.length_map]
  split <;> rename_i h <;> split at h <;> cases h
  · rename_i hmany
    rw [if_pos hmany]
  · rename_i hfew
    rw [if_neg hfew, expiredClaims_eq]

theorem find?_updateWhere {a id : Nat} {p : Row → Bool} {f : Row → Row}
    (hp : ∀ row, p row → row.id = a) (hf : ∀ row, (f row).id = row.id) (hne : id ≠ a) :
    (updateWhere p f rows).find? (·.id = id) = rows.find? (·.id = id) := by
  have hid : ∀ row, (if p row then f row else row).id = row.id := fun row => by
    split
    · exact hf row
    · rfl
  rw [updateWhere, List.find?_map]
  have hsame : ((fun row : Row => decide (row.id = id)) ∘ fun row => if p row then f row else row) =
      fun row => decide (row.id = id) := by
    funext row
    exact decide_eq_decide.mpr (by rw [hid])
  rw [hsame]
  cases hfind : rows.find? (·.id = id) with
  | none => rfl
  | some row =>
    have hrow : row.id = id := by simpa using List.find?_some hfind
    rw [Option.map_some, if_neg fun h => hne (hrow.symm.trans (hp row h))]

theorem processClaim_spec (finalize : Nat → Except String String) {a : Nat} {row : Row}
    (hfind : rows.find? (·.id = a) = some row) (hrow : row.isFinalized = false) :
    (processClaim finalize a rows).1 = true ∧
      ∀ id, id ≠ a → (processClaim finalize a rows).2.find? (·.id = id) =
      rows.find? (·.id = id) := by
  unfold processClaim
  rw [hfind]
  simp only [hrow, Bool.false_eq_true, if_false]
  cases finalize a with
  | ok onChainStatus =>
    exact ⟨rfl, fun id hne => find?_updateWhere (fun _ => of_decide_eq_true) (fun _ => rfl) hne⟩
  | error msg =>
    refine ⟨rfl, fun id hne => ?_⟩
    dsimp only
    split
    · exact find?_updateWhere (fun _ h => of_decide_eq_true (Bool.and_eq_true _ _ ▸ h).1)
        (fun _ => rfl) hne
    · rfl

theorem processClaims_eq {ids : List Nat} (hids : ids.Nodup) (hrows : ∀ id ∈ ids, ∃ row,
    rows.find? (·.id = id) = some row ∧ row.isFinalized = false) :
    processClaims finalize ids rows = ids := by
  induction ids generalizing rows with
  | nil => rfl
  | cons a ids ih =>
    obtain ⟨ha, hids⟩ := List.nodup_cons.mp hids
    obtain ⟨row, hfind, hrow⟩ := hrows a List.mem_cons_self
    obtain ⟨hcalled, hothers⟩ := processClaim_spec finalize hfind hrow
    rw [processClaims]
    dsimp only
    rw [if_pos hcalled, ih hids fun id hid => ?_]
    rw [hothers id fun h => ha (h ▸ hid)]
    exact hrows id (List.mem_cons_of_mem _ hid)

theorem find?_of_mem (hids : (rows.map Row.id).Nodup) {row : Row} (hrow : row ∈ rows) :
    rows.find? (·.id = row.id) = some row := by
  cases hfind : rows.find? (·.id = row.id) with
  | none => exact absurd (decide_eq_true rfl) (List.find?_eq_none.mp hfind row hrow)
  | some found =>
    have hid : found.id = row.id := by simpa using List.find?_some hfind
    exact congrArg some (List.inj_on_of_nodup_map hids (List.mem_of_find?_eq_some hfind) hrow hid)

theorem runScan_eq (hids : (rows.map Row.id).Nodup) (currentLedger : Nat) :
    runScan finalize (some currentLedger) rows = (findExpired currentLedger rows).map Row.id := by
  have hsub : ∀ row ∈ findExpired currentLedger rows, row ∈ rows.filter (isExpired currentLedger) :=
    fun row hrow => (List.mem_insertionSort _).mp (List.mem_of_mem_take hrow)
  refine processClaims_eq ?_ fun id hid => ?_
  · have hsorted : (((rows.filter (isExpired currentLedger)).insertionSort
        (·.createdAtLedger ≤ ·.createdAtLedger)).map Row.id).Nodup :=
      ((List.perm_insertionSort _ _).map Row.id).nodup_iff.mpr
        (hids.sublist (List.filter_sublist.map Row.id))
    exact hsorted.sublist ((List.take_sublist _ _).map Row.id)
  · obtain ⟨row, hrow, rfl⟩ := List.mem_map.mp hid
    obtain ⟨hmem, hexpired⟩ := List.mem_filter.mp (hsub row hrow)
    refine ⟨row, find?_of_mem hids hmem, ?_⟩
    simp only [isExpired, Bool.and_eq_true, Bool.not_eq_true'] at hexpired
    exact hexpired.1.1.2

theorem length_runScan (hids : (rows.map Row.id).Nodup) (currentLedger : Nat) :
    (runScan finalize (some currentLedger) rows).length =
      min CLAIM_DEADLINE_BATCH_SIZE (rows.filter (isExpired currentLedger)).length := by
  rw [runScan_eq hids, List.length_map, findExpired, List.length_take, List.length_insertionSort]

/-- **What the processor submits**: an expired claim that has few others before it. -/
theorem mem_runScan_iff (hids : (rows.map Row.id).Nodup) {currentLedger id : Nat} :
    id ∈ runScan finalize (some currentLedger) rows ↔
      ∃ row ∈ rows.filter (isExpired currentLedger), row.id = id ∧
        (ahead (rows.filter (isExpired currentLedger)) row).length < CLAIM_DEADLINE_BATCH_SIZE := by
  have hnodup : (rows.filter (isExpired currentLedger)).Nodup := (List.Nodup.of_map _ hids).filter _
  have htotal : Std.Total fun a b : Row => a.createdAtLedger ≤ b.createdAtLedger :=
    ⟨fun a b => Nat.le_total _ _⟩
  have htrans : IsTrans Row fun a b => a.createdAtLedger ≤ b.createdAtLedger :=
    ⟨fun _ _ _ => Nat.le_trans⟩
  have hahead (row : Row) : ahead (rows.filter (isExpired currentLedger)) row =
      (rows.filter (isExpired currentLedger)).filter fun other => other ≠ row ∧
        other.createdAtLedger ≤ row.createdAtLedger ∧
          (¬ row.createdAtLedger ≤ other.createdAtLedger ∨
          [other, row].Sublist (rows.filter (isExpired currentLedger))) := by
    refine List.filter_congr fun other _ => decide_eq_decide.mpr (and_congr_right fun _ => ?_)
    grind
  rw [runScan_eq hids, List.mem_map]
  simp only [findExpired, StableSort.mem_take_insertionSort_iff hnodup, hahead]
  constructor
  · rintro ⟨row, ⟨hrow, hlt⟩, rfl⟩
    exact ⟨row, hrow, rfl, hlt⟩
  · rintro ⟨row, hrow, rfl, hlt⟩
    exact ⟨row, ⟨hrow, hlt⟩, rfl⟩

end Submitted

/-! ## When the keepers are exact -/

section Exact

variable {s : State} {rows : List Row} {keeperSourceAccount : String}
  {finalize : Nat → Except String String}

theorem mem_underAppeal_iff (h : Mirrors s rows) {id : Nat} {claim : Claim}
    (hclaim : s.getClaim id = some claim) :
    id ∈ (rows.filter isUnderAppeal).map Row.id ↔ claim.status = .underAppeal := by
  rw [List.mem_map]
  constructor
  · rintro ⟨row, hrow, rfl⟩
    obtain ⟨hmem, hunder⟩ := List.mem_filter.mp hrow
    obtain ⟨claim', hclaim', hshows⟩ := h.shows row hmem
    obtain rfl := Option.some_inj.mp (hclaim.symm.trans hclaim')
    simp only [isUnderAppeal, Bool.and_eq_true, decide_eq_true_eq] at hunder
    exact hshows.underAppeal.mp hunder.1
  · intro hst
    obtain ⟨row, hmem, rfl⟩ := h.stored id claim hclaim
    obtain ⟨claim', hclaim', hshows⟩ := h.shows row hmem
    obtain rfl := Option.some_inj.mp (hclaim.symm.trans hclaim')
    refine ⟨row, List.mem_filter.mpr ⟨hmem, ?_⟩, rfl⟩
    simp [isUnderAppeal, hshows.underAppeal.mpr hst, hshows.deletedAt]

theorem isExpired_iff (h : Mirrors s rows) {row : Row} (hrow : row ∈ rows) {claim : Claim}
    (hclaim : s.getClaim row.id = some claim) {currentLedger : Nat} :
    isExpired currentLedger row ↔
      claim.status = .processing ∧ claim.filedAt + CLAIM_VOTING_WINDOW_LEDGERS ≤ currentLedger := by
  obtain ⟨claim', hclaim', hshows⟩ := h.shows row hrow
  obtain rfl := Option.some_inj.mp (hclaim.symm.trans hclaim')
  simp only [isExpired, Bool.and_eq_true, Bool.not_eq_true', decide_eq_true_eq]
  rw [hshows.pending, hshows.createdAtLedger, hshows.deletedAt]
  constructor
  · rintro ⟨⟨⟨hst, -⟩, -⟩, hfiled⟩
    exact ⟨hst, by omega⟩
  · rintro ⟨hst, hfiled⟩
    exact ⟨⟨⟨hst, hshows.isFinalized hst⟩, rfl⟩, by omega⟩

theorem mem_runFinalizationCycle_iff (h : Mirrors s rows) (haccount : keeperSourceAccount ≠ "")
    (hfew : (rows.filter isUnderAppeal).length ≤ CLAIM_BATCH_GET_MAX) {id : Nat} {claim : Claim}
    (hclaim : s.getClaim id = some claim) :
    id ∈ runFinalizationCycle keeperSourceAccount s rows ↔
      claim.status = .underAppeal ∧ claim.appealOpenDeadlineLedger ≤ s.sequence := by
  rw [runFinalizationCycle_eq haccount, if_neg (Nat.not_lt.mpr hfew), List.mem_filter,
    mem_underAppeal_iff h hclaim, hclaim, Option.any_some, decide_eq_true_eq]

theorem stored_of_mem_runFinalizationCycle (haccount : keeperSourceAccount ≠ "") {id : Nat}
    (hid : id ∈ runFinalizationCycle keeperSourceAccount s rows) :
    ∃ claim, s.getClaim id = some claim := by
  rw [runFinalizationCycle_eq haccount] at hid
  split at hid
  · cases hid
  · obtain ⟨claim, hclaim, -⟩ := (Option.any_eq_true _ _).mp (List.mem_filter.mp hid).2
    exact ⟨claim, hclaim⟩

theorem length_runFinalizationCycle_lt (h : Mirrors s rows) (haccount : keeperSourceAccount ≠ "")
    (hfew : (rows.filter isUnderAppeal).length ≤ CLAIM_BATCH_GET_MAX) {id : Nat} {claim : Claim}
    (hclaim : s.getClaim id = some claim) (hst : claim.status = .underAppeal)
    (hopen : ¬ claim.appealOpenDeadlineLedger ≤ s.sequence) :
    (runFinalizationCycle keeperSourceAccount s rows).length < CLAIM_BATCH_GET_MAX := by
  have hleft : (((rows.filter isUnderAppeal).map Row.id).filter fun id =>
      (s.getClaim id).any (·.appealOpenDeadlineLedger ≤ s.sequence)).length <
        ((rows.filter isUnderAppeal).map Row.id).length := by
    refine List.length_filter_lt_length_iff_exists.mpr
      ⟨id, (mem_underAppeal_iff h hclaim).mpr hst, ?_⟩
    rw [hclaim, Option.any_some, decide_eq_true_eq]
    exact hopen
  rw [List.length_map] at hleft
  rw [runFinalizationCycle_eq haccount, if_neg (Nat.not_lt.mpr hfew)]
  exact Nat.lt_of_lt_of_le hleft hfew

theorem appealsTimed_of_exact (h : Mirrors s rows) (haccount : keeperSourceAccount ≠ "")
    (haccepted : ∀ id ∈ runFinalizationCycle keeperSourceAccount s rows,
      Accepts (finalizeAppeal s id))
    (hselected : ∀ id claim, s.getClaim id = some claim → claim.status = .underAppeal →
      claim.appealDeadlineLedger < s.sequence →
        id ∈ runFinalizationCycle keeperSourceAccount s rows ∨
          CLAIM_BATCH_GET_MAX ≤ (runFinalizationCycle keeperSourceAccount s rows).length) :
    AppealsTimed s rows := by
  refine ⟨fun hpaused hfew id claim hclaim hst hopen => ?_, fun id claim hclaim hst hpast => ?_⟩
  · have hid := (mem_runFinalizationCycle_iff h haccount hfew hclaim).mpr ⟨hst, hopen⟩
    exact (finalizeAppeal_accepts_iff hclaim hst).mp (haccepted id hid) hpaused
  · have hsubmitted := hselected id claim hclaim hst hpast
    by_cases hmany : CLAIM_BATCH_GET_MAX < (rows.filter isUnderAppeal).length
    · rw [runFinalizationCycle_eq haccount, if_pos hmany] at hsubmitted
      rcases hsubmitted with hid | hlen
      · cases hid
      · exact absurd hlen (by decide)
    · have hfew := Nat.le_of_not_lt hmany
      refine ⟨?_, hfew⟩
      by_contra hopen
      have hnot := fun hid => hopen ((mem_runFinalizationCycle_iff h haccount hfew hclaim).mp hid).2
      exact Nat.not_le.mpr (length_runFinalizationCycle_lt h haccount hfew hclaim hst hopen)
        (hsubmitted.resolve_left hnot)

theorem appeals_exact_iff (h : Mirrors s rows) (haccount : keeperSourceAccount ≠ "") :
    ((∀ id ∈ runFinalizationCycle keeperSourceAccount s rows, Accepts (finalizeAppeal s id)) ∧
      ∀ id claim, s.getClaim id = some claim → claim.status = .underAppeal →
        claim.appealDeadlineLedger < s.sequence →
          id ∈ runFinalizationCycle keeperSourceAccount s rows ∨
            CLAIM_BATCH_GET_MAX ≤ (runFinalizationCycle keeperSourceAccount s rows).length) ↔
      AppealsTimed s rows := by
  constructor
  · rintro ⟨haccepted, hselected⟩
    exact appealsTimed_of_exact h haccount haccepted hselected
  rintro ⟨hearly, hlate⟩
  constructor
  · intro id hid
    have hfew : (rows.filter isUnderAppeal).length ≤ CLAIM_BATCH_GET_MAX := by
      by_contra hmany
      rw [runFinalizationCycle_eq haccount, if_pos (Nat.lt_of_not_le hmany)] at hid
      cases hid
    obtain ⟨claim, hclaim⟩ := stored_of_mem_runFinalizationCycle haccount hid
    obtain ⟨hst, hopen⟩ := (mem_runFinalizationCycle_iff h haccount hfew hclaim).mp hid
    exact (finalizeAppeal_accepts_iff hclaim hst).mpr fun hpaused =>
      hearly hpaused hfew id claim hclaim hst hopen
  · intro id claim hclaim hst hpast
    obtain ⟨hopen, hfew⟩ := hlate id claim hclaim hst hpast
    exact .inl ((mem_runFinalizationCycle_iff h haccount hfew hclaim).mpr ⟨hst, hopen⟩)

theorem claims_exact_iff (finalize : Nat → Except String String) (h : Mirrors s rows) :
    ((∀ id ∈ runScan finalize (some s.sequence) rows, Accepts (finalizeClaim s id)) ∧
      ∀ id claim, s.getClaim id = some claim → claim.status = .processing →
        claim.votingDeadlineLedger < s.sequence →
          id ∈ runScan finalize (some s.sequence) rows ∨
            CLAIM_DEADLINE_BATCH_SIZE ≤ (runScan finalize (some s.sequence) rows).length) ↔
      ClaimsTimed s rows := by
  constructor
  · rintro ⟨haccepted, hselected⟩
    constructor
    · intro hpaused row hrow hahead claim hclaim
      obtain ⟨hmem, hexpired⟩ := List.mem_filter.mp hrow
      exact (finalizeClaim_accepts_iff hclaim ((isExpired_iff h hmem hclaim).mp hexpired).1).mp
        (haccepted row.id ((mem_runScan_iff h.ids).mpr ⟨row, hrow, rfl, hahead⟩)) hpaused
    · intro id claim hclaim hst hpast
      refine (hselected id claim hclaim hst hpast).imp (fun hid => ?_) fun hlen => ?_
      · obtain ⟨row, hrow, rfl, -⟩ := (mem_runScan_iff h.ids).mp hid
        obtain ⟨hmem, hexpired⟩ := List.mem_filter.mp hrow
        exact ((isExpired_iff h hmem hclaim).mp hexpired).2
      · rw [length_runScan h.ids] at hlen
        exact (Nat.le_min.mp hlen).2
  · rintro ⟨hearly, hlate⟩
    constructor
    · intro id hid
      obtain ⟨row, hrow, rfl, hahead⟩ := (mem_runScan_iff h.ids).mp hid
      obtain ⟨hmem, hexpired⟩ := List.mem_filter.mp hrow
      obtain ⟨claim, hclaim, -⟩ := h.shows row hmem
      exact (finalizeClaim_accepts_iff hclaim ((isExpired_iff h hmem hclaim).mp hexpired).1).mpr
        fun hpaused => hearly hpaused row hrow hahead claim hclaim
    · intro id claim hclaim hst hpast
      rw [length_runScan h.ids]
      by_cases hfull : CLAIM_DEADLINE_BATCH_SIZE ≤ (rows.filter (isExpired s.sequence)).length
      · exact .inr (Nat.le_min.mpr ⟨Nat.le_refl _, hfull⟩)
      · have hold := (hlate id claim hclaim hst hpast).resolve_right hfull
        obtain ⟨row, hmem, rfl⟩ := h.stored id claim hclaim
        have hrow := List.mem_filter.mpr ⟨hmem, (isExpired_iff h hmem hclaim).mpr ⟨hst, hold⟩⟩
        refine .inl ((mem_runScan_iff h.ids).mpr ⟨row, hrow, rfl, ?_⟩)
        exact Nat.lt_of_le_of_lt (List.length_filter_le _ _) (Nat.lt_of_not_le hfull)

/-- **When the keepers are exact**: the deadline for opening an appeal agrees with the deadline of
its votes, and the constant window with the voting deadlines. -/
theorem keepers_exact_iff (h : Mirrors s rows) (haccount : keeperSourceAccount ≠ "") :
    KeepersExact keeperSourceAccount finalize s rows ↔
      AppealsTimed s rows ∧ ClaimsTimed s rows := by
  rw [← appeals_exact_iff h haccount, ← claims_exact_iff finalize h]
  constructor
  · rintro ⟨haccepted, hselected, hclaims, hclaimed⟩
    exact ⟨⟨haccepted, hselected⟩, hclaims, hclaimed⟩
  · rintro ⟨⟨haccepted, hselected⟩, hclaims, hclaimed⟩
    exact ⟨haccepted, hselected, hclaims, hclaimed⟩

end Exact

/-! ## An appeal that is still open -/

/-- What the keepers and the contract read of a claim. -/
structure Timing where
  claimId : Nat
  status : NiffyInsure.ClaimStatus
  filedAt : Nat
  votingDeadlineLedger : Nat
  appealOpenDeadlineLedger : Nat
  appealDeadlineLedger : Nat
  deriving DecidableEq

def timing (claim : Claim) : Timing where
  claimId := claim.claimId
  status := claim.status
  filedAt := claim.filedAt
  votingDeadlineLedger := claim.votingDeadlineLedger
  appealOpenDeadlineLedger := claim.appealOpenDeadlineLedger
  appealDeadlineLedger := claim.appealDeadlineLedger

def summary (s : State) : List Timing × Nat × Bool :=
  (s.claims.map timing, s.sequence, claimsPaused s)

theorem exists_claim_of_summary (row : Row) {s : State} {seen : Timing} {now : Nat} {paused : Bool}
    (hkeyed : s.ClaimsKeyed) (h : summary s = ([seen], now, paused)) (hid : row.id = seen.claimId)
    (hpending : row.status = .pending ↔ seen.status = .processing)
    (hunder : row.status = .underAppeal ↔ seen.status = .underAppeal)
    (hfinal : row.isFinalized = false)
    (hdeleted : row.deletedAt = none) (hcreated : row.createdAtLedger = seen.filedAt) :
    Mirrors s [row] ∧ ∃ claim, s.getClaim seen.claimId = some claim ∧ timing claim = seen ∧
      ∀ id claim', s.getClaim id = some claim' → claim' = claim := by
  simp only [summary, Prod.mk.injEq] at h
  obtain ⟨claim, hclaims, rfl⟩ := List.map_eq_singleton_iff.mp h.1
  have honly (id' : Nat) (claim' : Claim) (hget : s.getClaim id' = some claim') :
      id' = claim.claimId ∧ claim' = claim := by
    have hmem := mem_claims.mpr ⟨id', hget⟩
    rw [hclaims, List.mem_singleton] at hmem
    subst hmem
    exact ⟨(hkeyed id' claim' hget).1.symm, rfl⟩
  have hget : s.getClaim claim.claimId = some claim := by
    obtain ⟨id', hget⟩ := mem_claims.mp (hclaims ▸ List.mem_singleton.mpr rfl : claim ∈ s.claims)
    rw [← (honly id' claim hget).1]
    exact hget
  refine ⟨⟨List.nodup_singleton _, ?_, ?_⟩, claim, hget, rfl, fun id' claim' h =>
    (honly id' claim' h).2⟩
  · intro row' hrow'
    obtain rfl := List.mem_singleton.mp hrow'
    exact ⟨claim, hid ▸ hget, hpending, hunder, fun _ => hfinal, hdeleted, hcreated⟩
  · intro id' claim' hget'
    exact ⟨row, List.mem_singleton.mpr rfl, hid.trans (honly id' claim' hget').1.symm⟩

/-- One ledger after the voting deadline of a claim the processor submits it, and the contract
accepts. -/
theorem keepers_exact_iff_past : ∃ s rows, (contract demoHost).Reach Machine.always s ∧
    Mirrors s rows ∧ runScan (fun _ => .ok "Rejected") (some s.sequence) rows = [1] ∧
    KeepersExact "GKEEPER" (fun _ => .ok "Rejected") s rows := by
  obtain ⟨s, hreach, hval⟩ := exists_of_follow always_of_noCheck (deployed 0)
    (filedTrace ++ [.closeLedger 121961]) (f := summary)
    (a := ([⟨1, .processing, 1000, 121960, 0, 0⟩], 121961, false)) (fresh_deployed (by decide))
    (by simp [filedTrace, demoSetup, demoInit, demoBind, demoFile]) (by decide +kernel)
  obtain ⟨hmirrors, claim, hclaim, hseen, honly⟩ :=
    exists_claim_of_summary ⟨1, .pending, false, none, 1000⟩ (claimsKeyed_of_reach hreach) hval rfl
      (by decide) (by decide) rfl rfl rfl
  have hst : claim.status = .processing := congrArg Timing.status hseen
  have hfiled : claim.filedAt = 1000 := congrArg Timing.filedAt hseen
  have hvoting : claim.votingDeadlineLedger = 121960 := congrArg Timing.votingDeadlineLedger hseen
  have hseq : s.sequence = 121961 := congrArg (·.2.1) hval
  refine ⟨s, _, hreach, hmirrors, by rw [hseq]; decide, ?_⟩
  refine (keepers_exact_iff hmirrors (by decide)).mpr ⟨⟨?_, ?_⟩, ?_, ?_⟩
  · intro _ _ id claim' hclaim' hunder
    rw [honly id claim' hclaim', hst] at hunder
    cases hunder
  · intro id claim' hclaim' hunder
    rw [honly id claim' hclaim', hst] at hunder
    cases hunder
  · intro _ row _ _ claim' hclaim'
    rw [honly _ claim' hclaim', hvoting, hseq]
    decide
  · intro id claim' hclaim' _ _
    rw [honly _ claim' hclaim', hfiled, hseq]
    exact .inl (by decide)

theorem scan_one_early : ∃ s rows, (contract demoHost).Reach Machine.always s ∧ Mirrors s rows ∧
    1 ∈ runScan (fun _ => .ok "Rejected") (some s.sequence) rows ∧
      ¬ Accepts (finalizeClaim s 1) := by
  obtain ⟨s, hreach, hval⟩ := exists_of_follow always_of_noCheck (deployed 0)
    (filedTrace ++ [.closeLedger 121960]) (f := summary)
    (a := ([⟨1, .processing, 1000, 121960, 0, 0⟩], 121960, false)) (fresh_deployed (by decide))
    (by simp [filedTrace, demoSetup, demoInit, demoBind, demoFile]) (by decide +kernel)
  obtain ⟨hmirrors, claim, hclaim, hseen, -⟩ :=
    exists_claim_of_summary ⟨1, .pending, false, none, 1000⟩ (claimsKeyed_of_reach hreach) hval rfl
      (by decide) (by decide) rfl rfl rfl
  have hst : claim.status = .processing := congrArg Timing.status hseen
  have hvoting : claim.votingDeadlineLedger = 121960 := congrArg Timing.votingDeadlineLedger hseen
  have hseq : s.sequence = 121960 := congrArg (·.2.1) hval
  have hpaused : claimsPaused s = false := congrArg (·.2.2) hval
  refine ⟨s, _, hreach, hmirrors, by rw [hseq]; decide, fun haccepts => ?_⟩
  have hlt := (finalizeClaim_accepts_iff hclaim hst).mp haccepts hpaused
  omega

/-- Account 1 opens an appeal.  When it could no longer be opened, but is voted on for four more
days, the keeper submits it. -/
theorem keepers_not_exact : ¬ ∀ (host : Host) (s : State) (rows : List Row)
    (keeperSourceAccount : String)
    (finalize : Nat → Except String String), (contract host).Reach Machine.always s →
      Mirrors s rows →
      keeperSourceAccount ≠ "" → KeepersExact keeperSourceAccount finalize s rows := by
  intro h
  obtain ⟨s, hreach, hval⟩ := exists_of_follow always_of_noCheck (deployed 0)
    (appealedTrace ++ [.closeLedger 52840])
    (f := fun s => (summary s,
      runFinalizationCycle "GKEEPER" s [⟨1, .underAppeal, false, none, 1000⟩]))
    (a := (([⟨1, .underAppeal, 1000, 121960, 52840, 121960⟩], 52840, false), [1]))
    (fresh_deployed (by decide))
    (by simp [appealedTrace, filedTrace, demoSetup, demoInit, demoBind, demoFile])
      (by decide +kernel)
  obtain ⟨hsummary, hcycle⟩ := Prod.mk.injEq .. ▸ hval
  obtain ⟨hmirrors, claim, hclaim, hseen, -⟩ :=
    exists_claim_of_summary ⟨1, .underAppeal, false, none, 1000⟩ (claimsKeyed_of_reach hreach)
      hsummary rfl (by decide) (by decide) rfl rfl rfl
  have hst : claim.status = .underAppeal := congrArg Timing.status hseen
  have hvoting : claim.appealDeadlineLedger = 121960 := congrArg Timing.appealDeadlineLedger hseen
  have hseq : s.sequence = 52840 := congrArg (·.2.1) hsummary
  have hpaused : claimsPaused s = false := congrArg (·.2.2) hsummary
  have hexact := h demoHost s _ "GKEEPER" (fun _ => .ok "Rejected") hreach hmirrors (by decide)
  have haccepts := hexact.appealAccepted 1 (hcycle ▸ List.mem_singleton.mpr rfl)
  have hlt := (finalizeAppeal_accepts_iff hclaim hst).mp haccepts hpaused
  omega

end NiffyInsure.Backend.Keepers
