import NiffyInsure.Lib.Paging
import NiffyInsure.Provenance
import Mathlib.Data.List.Sort

/-!
# The paginated listings

`list_claims` and `list_policies` read the ids behind a cursor up to the counter, and stop when the
page is full; the cursor of the next page is the id that the last record of the page has in itself.
`get_inactive_policies` numbers its pages, and passes over the ones before on every call.

* `scan_eq`, `scanInactive_eq`: what the loops collect.
* `State.PoliciesCounted`: without transfers the policies of a holder have the ids up to the
  counter.
* `listings_complete_of_reach`: the pages make up everything that is stored.

The ids and the counters are unbounded here.  On the host the `u64` counter of the claims would have
to be used up for the difference to show, and the one of a holder's policies stops at
`MAX_POLICIES_PER_HOLDER`.
-/

namespace NiffyInsure

open Machine Paging

def INACTIVE_POLICIES_PAGE_SIZE_MAX : Nat := 20

/-! ## The listings -/

structure ClaimSummary where
  claimId : Nat
  policyId : Nat
  amount : Int
  deductible : Int
  status : ClaimStatus
  filedAt : Nat
  votingDeadlineLedger : Nat
  deriving DecidableEq

structure PolicySummary where
  policyId : Nat
  policyType : PolicyType
  coverage : Int
  isActive : Bool
  endLedger : Nat
  deriving DecidableEq

def Claim.summary (c : Claim) : ClaimSummary where
  claimId := c.claimId
  policyId := c.policyId
  amount := c.amount
  deductible := c.deductible
  status := c.status
  filedAt := c.filedAt
  votingDeadlineLedger := c.votingDeadlineLedger

def Policy.summary (p : Policy) (now : Nat) : PolicySummary where
  policyId := p.policyId
  policyType := p.policyType
  coverage := p.coverage
  isActive := isPolicyActiveByLedger p now
  endLedger := p.endLedger

/-- `while id <= total && results.len() < cap`, over the ids that `id` takes. -/
def scan {α : Type} (get : Nat → Option α) (cap : Nat) : List Nat → List α → List α
  | [], results => results
  | id :: ids, results =>
    if results.length < cap then
      match get id with
      | some x => scan get cap ids (results ++ [x])
      | none => scan get cap ids results
    else results

/-- The ids behind `start` up to `total`. -/
def idsAfter (start total : Nat) : List Nat := List.range' (start + 1) (total - start)

/-- The loop of `get_inactive_policies`, with the number of policies that were passed over. -/
def scanInactive (get : Nat → Option Policy) (now skip pageSize : Nat) :
    List Nat → Nat → List Policy → List Policy
  | [], _, results => results
  | id :: ids, skipped, results =>
    if results.length < pageSize then
      match get id with
      | some p =>
        if isPolicyActiveByLedger p now = false then
          if skipped < skip then scanInactive get now skip pageSize ids (skipped + 1) results
          else scanInactive get now skip pageSize ids skipped (results ++ [p])
        else scanInactive get now skip pageSize ids skipped results
      | none => scanInactive get now skip pageSize ids skipped results
    else results

namespace State

variable (s : State)

/-- `list_claims`. -/
def listClaims (startAfter limit : Nat) : List ClaimSummary :=
  scan (fun id => (s.getClaim id).map Claim.summary) (min limit PAGE_SIZE_MAX)
    (idsAfter startAfter s.getClaimCounter) []

/-- `list_policies`. -/
def listPolicies (holder : Address) (startAfter limit : Nat) : List PolicySummary :=
  scan (fun id => (s.getPolicy holder id).map fun p => p.summary s.sequence)
    (min limit PAGE_SIZE_MAX) (idsAfter startAfter (s.getPolicyCounter holder)) []

/-- `get_inactive_policies`. -/
def getInactivePolicies (holder : Address) (page pageSize : Nat) : Result (List Policy) := do
  ensure (pageSize ≤ INACTIVE_POLICIES_PAGE_SIZE_MAX) (.error .pageSizeTooLarge)
  let skip := min (page * pageSize) U32_MAX
  pure (scanInactive (s.getPolicy holder) s.sequence skip pageSize
    (idsAfter 0 (s.getPolicyCounter holder)) 0 [])

end State

/-- A page of a listing.  The reader stops at an empty page, and goes on behind the id of the last
summary otherwise. -/
def idPage {α : Type} (id : α → Nat) (items : List α) : Page α Nat where
  items := items
  next := items.getLast?.map id

/-! ## The loops -/

section Loops

variable {α : Type} {get : Nat → Option α} {cap : Nat}

/-- **A page is the front of what the ids give.** -/
theorem scan_eq (ids : List Nat) (results : List α) (h : results.length ≤ cap) :
    scan get cap ids results = (results ++ ids.filterMap get).take cap := by
  induction ids generalizing results with
  | nil =>
    rw [scan, List.filterMap_nil, List.append_nil, List.take_of_length_le h]
  | cons id ids ih =>
    rw [scan]
    split
    · rename_i hroom
      cases hget : get id with
      | some x =>
        rw [List.filterMap_cons_some hget]
        show scan get cap ids (results ++ [x]) = _
        rw [ih _ (by rw [List.length_append, List.length_singleton]; omega), List.append_assoc]
        rfl
      | none =>
        rw [List.filterMap_cons_none hget]
        exact ih _ h
    · rw [List.take_append_of_le_length (by omega), List.take_of_length_le h]

theorem scanInactive_eq {get : Nat → Option Policy} {now skip pageSize : Nat} (ids : List Nat)
    (skipped : Nat) (results : List Policy) (hskip : skipped ≤ skip)
    (hroom : results.length ≤ pageSize) (hfirst : skipped < skip → results = []) :
    scanInactive get now skip pageSize ids skipped results =
      (results ++ ((ids.filterMap get).filter fun p => !isPolicyActiveByLedger p now).drop
        (skip - skipped)).take pageSize := by
  induction ids generalizing skipped results with
  | nil =>
    rw [scanInactive, List.filterMap_nil, List.filter_nil, List.drop_nil, List.append_nil,
      List.take_of_length_le hroom]
  | cons id ids ih =>
    rw [scanInactive]
    split
    · rename_i hlt
      cases hget : get id with
      | none =>
        rw [List.filterMap_cons_none hget]
        exact ih skipped results hskip hroom hfirst
      | some p =>
        rw [List.filterMap_cons_some hget]
        by_cases hactive : isPolicyActiveByLedger p now = false
        · rw [List.filter_cons_of_pos (by simp [hactive])]
          simp only [hactive, if_true]
          by_cases hpass : skipped < skip
          · rw [if_pos hpass, ih (skipped + 1) results hpass hroom (fun _ => hfirst hpass)]
            rw [show skip - skipped = (skip - (skipped + 1)) + 1 by omega, List.drop_succ_cons]
          · rw [if_neg hpass, ih skipped (results ++ [p]) hskip
              (by rw [List.length_append, List.length_singleton]; omega) (fun h => absurd h hpass)]
            rw [show skip - skipped = 0 by omega, List.drop_zero, List.drop_zero, List.append_assoc]
            rfl
        · rw [List.filter_cons_of_neg (by simpa using hactive)]
          simp only [if_neg hactive]
          exact ih skipped results hskip hroom hfirst
    · have hfull : results.length = pageSize := by omega
      rw [List.take_append_of_le_length hfull.ge, List.take_of_length_le hroom]

theorem mem_idsAfter {start total id : Nat} :
    id ∈ idsAfter start total ↔ start < id ∧ id ≤ total := by
  rw [idsAfter, List.mem_range'_1]
  omega

theorem sorted_idsAfter (start total : Nat) : (idsAfter start total).Pairwise (· < ·) :=
  List.pairwise_lt_range'

theorem filter_idsAfter (start total : Nat) :
    (idsAfter 0 total).filter (fun id => decide (start < id)) = idsAfter start total := by
  refine ((sorted_idsAfter 0 total).filter _).eq_of_mem_iff (sorted_idsAfter start total) ?_
  intro id
  rw [List.mem_filter, mem_idsAfter, mem_idsAfter, decide_eq_true_eq]
  omega

/-- The records of a listing, all of them: under every id there is one with that id. -/
structure IdKeyed (get : Nat → Option α) (key : α → Nat) (total : Nat) : Prop where
  key : ∀ id x, get id = some x → key x = id
  range : ∀ id x, get id = some x → 0 < id ∧ id ≤ total

variable {key : α → Nat} {total : Nat}

theorem IdKeyed.seek (h : IdKeyed get key total) (start : Nat) :
    (idsAfter start total).filterMap get =
      Paging.seek key (fun c id => decide (c < id)) ((idsAfter 0 total).filterMap get) start := by
  rw [Paging.seek, List.filter_filterMap, ← filter_idsAfter, List.filterMap_filter]
  refine List.filterMap_congr fun id _ => ?_
  cases hget : get id with
  | none => simp
  | some x =>
    have hx := h.key id x hget
    by_cases hlt : start < id <;> simp [Option.filter, hlt, hx]

theorem IdKeyed.sorted (h : IdKeyed get key total) (start : Nat) :
    ((idsAfter start total).filterMap get).Pairwise fun x y => key x < key y := by
  refine (List.pairwise_filterMap).mpr ((sorted_idsAfter start total).imp ?_)
  intro a b hab x hx y hy
  rw [h.key a x hx, h.key b y hy]
  exact hab

theorem IdKeyed.mem_iff (h : IdKeyed get key total) {x : α} :
    x ∈ (idsAfter 0 total).filterMap get ↔ ∃ id, get id = some x := by
  rw [List.mem_filterMap]
  constructor
  · rintro ⟨id, -, hget⟩
    exact ⟨id, hget⟩
  · rintro ⟨id, hget⟩
    exact ⟨id, mem_idsAfter.mpr (h.range id x hget), hget⟩

/-- **Every page of a listing is the front of what its cursor leaves.** -/
theorem IdKeyed.splits (h : IdKeyed get key total) (hcap : 0 < cap) :
    Splits (fun c => idPage key (scan get cap (idsAfter c total) [])) (fun _ => True)
      fun c => (idsAfter c total).filterMap get where
  last c _ hnext := by
    have hnil : scan get cap (idsAfter c total) [] = [] :=
      List.getLast?_eq_none_iff.mp (Option.map_eq_none_iff.mp hnext)
    show scan get cap (idsAfter c total) [] = _
    rw [hnil]
    rw [scan_eq _ _ (Nat.zero_le _), List.nil_append, List.take_eq_nil_iff] at hnil
    rcases hnil with hzero | hrest
    · omega
    · exact hrest.symm
  more c c' _ hnext := by
    obtain ⟨x, hlast, rfl⟩ := Option.map_eq_some_iff.mp hnext
    have hitems : scan get cap (idsAfter c total) [] =
        (Paging.seek key (fun c id => decide (c < id)) ((idsAfter 0 total).filterMap get) c).take
          cap := by
      rw [scan_eq _ _ (Nat.zero_le _), List.nil_append, h.seek c]
    refine ⟨trivial, ?_, ?_⟩
    · show scan get cap (idsAfter c total) [] ≠ []
      intro hnil
      rw [hnil] at hlast
      cases hlast
    · show scan get cap (idsAfter c total) [] ++ _ = _
      rw [hitems] at hlast
      rw [hitems, h.seek (key x), h.seek c]
      refine take_append_seek ?_ ?_ ?_ hlast
      · intro a
        exact decide_eq_false (Nat.lt_irrefl a)
      · intro a b d hab hbd
        rw [decide_eq_true_eq] at hab hbd ⊢
        exact Nat.lt_trans hab hbd
      · exact (h.sorted 0).imp fun hlt => decide_eq_true hlt

/-- **A listing gives every record once, in the order of the ids**, and ends. -/
theorem IdKeyed.reads (h : IdKeyed get key total) (hcap : 0 < cap) :
    ∃ l, Reads (fun c => idPage key (scan get cap (idsAfter c total) [])) 0 l ∧
      l.Pairwise (fun x y => key x < key y) ∧ ∀ x, x ∈ l ↔ ∃ id, get id = some x :=
  ⟨_, (h.splits hcap).reads trivial, h.sorted 0, fun _ => h.mem_iff⟩

end Loops

/-! ## Ids and counters along a run -/

/-- The step is no transfer of a policy. -/
def Untransferred (_ : State) : Label → Prop
  | .call _ (.policy (.transferPolicy ..)) => False
  | _ => True

/-- The policies of a holder have ids up to the counter, which stops at the limit. -/
structure State.PoliciesCounted (s : State) : Prop where
  range : ∀ holder id p, s.getPolicy holder id = some p → id ≤ s.getPolicyCounter holder
  limit : ∀ holder, s.getPolicyCounter holder ≤ MAX_POLICIES_PER_HOLDER

section Steps

variable {env : Env} {s s' : State} {host : Host} {l : Label}

theorem nextPolicyId_le {holder : Address} {id : Nat} (h : s.nextPolicyId holder = .ok (id, s')) :
    id ≤ MAX_POLICIES_PER_HOLDER := by
  simp only [State.nextPolicyId, bind_eq_ok, ensure_eq_ok, pure_eq_ok, Prod.mk.injEq] at h
  obtain ⟨-, hle, rfl, -⟩ := h
  exact hle

theorem getPolicyCounter_of_same (h : SameKind .policyCounter s s') (holder : Address) :
    s'.getPolicyCounter holder = s.getPolicyCounter holder := by
  rw [State.getPolicyCounter, h (.policyCounter holder) rfl]

theorem samePolicyCounter_of_step (h : (contract host).step s l s') (hl : l.keepsKeys = true) :
    SameKind .policyCounter s s' := by
  cases l with
  | closeLedger n =>
    obtain ⟨-, -, rfl⟩ := h
    exact fun _ _ => rfl
  | tokens b a =>
    obtain ⟨-, rfl⟩ := h
    exact fun _ _ => rfl
  | call env c =>
    obtain ⟨-, h⟩ := h
    have hf := frame_exec h
    cases c with
    | claim c => exact hf.sameKind (c.untouched rfl)
    | treasury c => exact hf.sameKind (c.untouched rfl)
    | setting c => exact hf.sameKind rfl
    | governance c => exact hf.sameKind (c.untouched rfl)
    | policy c =>
      cases c with
      | initiatePolicy | transferPolicy => cases hl
      | _ => exact hf.sameKind rfl

theorem State.PoliciesCounted.keep (hs : s.PoliciesCounted) (hkeys : SamePolicyKeys s s')
    (hcount : SameKind .policyCounter s s') : s'.PoliciesCounted where
  range holder id p hp := by
    rw [getPolicyCounter_of_same hcount]
    cases hold : s.getPolicy holder id with
    | some q => exact hs.range holder id q hold
    | none =>
      rw [(hkeys holder id).mpr hold] at hp
      cases hp
  limit holder := by
    rw [getPolicyCounter_of_same hcount]
    exact hs.limit holder

theorem State.PoliciesCounted.initiate {a : InitiatePolicyArgs} {policy : Policy}
    (hs : s.PoliciesCounted) (h : initiatePolicy env s a = .ok (policy, s')) :
    s'.PoliciesCounted := by
  obtain ⟨hrec, hholder, hid, -⟩ := initiatePolicy_records h
  have hlimit : s.getPolicyCounter a.holder + 1 ≤ MAX_POLICIES_PER_HOLDER := by
    rw [← hid]
    cases initiateRun_of_ok h with
    | bound _ _ _ _ _ _ _ _ _ numbered => exact nextPolicyId_le numbered
  have hcount : ∀ holder, s'.getPolicyCounter holder =
      if holder = a.holder then s.getPolicyCounter a.holder + 1 else s.getPolicyCounter holder := by
    obtain ⟨_, _, _, _, _, _, s₃, s₄, s₅, -, -, -, hnumber, -, -, h₄, h₅, hf, -⟩ :=
      initiatePolicy_eq_ok h
    have hsame : SameKind .policyCounter (s.set (.policyCounter a.holder) policy.policyId) s' :=
      ((hnumber.trans ((frame_collectPremiumWithFee h₄).sameKind rfl)).trans
        ((frame_bindPolicy h₅).sameKind rfl)).trans (hf.sameKind rfl)
    intro holder
    rw [getPolicyCounter_of_same hsame]
    split
    · rename_i heq
      rw [heq, State.getPolicyCounter, State.get_set_self, Option.getD_some, hid]
    · rename_i hne
      rw [State.getPolicyCounter, State.get_set_of_ne _ _ (by simpa using hne)]
  constructor
  · intro holder id p hp
    rw [hcount]
    rw [getPolicy_of_write hrec] at hp
    split at hp
    · rename_i heq
      rw [if_pos (heq.1.trans hholder), heq.2, hid]
    · have hold := hs.range holder id p hp
      split
      · rename_i heq
        rw [heq] at hold
        omega
      · exact hold
  · intro holder
    rw [hcount]
    split
    · exact hlimit
    · exact hs.limit holder

/-- **Without transfers, the policies of a holder have ids up to the counter**, in every run. -/
theorem policiesCounted_of_reach (h : (contract host).Reach Untransferred s) :
    s.PoliciesCounted := by
  refine h.invariant (I := State.PoliciesCounted) ?_ ?_
  · intro s hs
    constructor
    · intro holder id p hp
      simp [State.getPolicy, State.Fresh.get host hs] at hp
    · intro holder
      simp [State.getPolicyCounter, State.Fresh.get host hs]
  · intro s l s' hl hstep hs
    cases hkeys : l.keepsKeys with
    | true =>
      exact hs.keep (samePolicyKeys_of_step hstep hkeys) (samePolicyCounter_of_step hstep hkeys)
    | false =>
      unfold Label.keepsKeys at hkeys
      split at hkeys
      · obtain ⟨-, hexec⟩ := hstep
        obtain ⟨policy, hran⟩ := policyRan_of_exec (c := .initiatePolicy _) hexec
        exact hs.initiate hran
      · cases hl
      · cases hkeys

theorem claimsPositive_of_reach (h : (contract host).Reach always s) :
    ∀ id claim, s.getClaim id = some claim → 0 < id := by
  refine claims_rule h (P := fun id _ => 0 < id) ?_ ?_
  · intro n _ _ _ _ _ _ _ _ _ _
    exact Nat.succ_pos n
  · intro id _ _ _ _ hpos
    exact hpos

end Steps

/-! ## Everything is listed -/

section Listed

variable {s : State}

theorem idKeyed_claims (hk : s.ClaimsKeyed)
    (hpos : ∀ id claim, s.getClaim id = some claim → 0 < id) :
    IdKeyed (fun id => (s.getClaim id).map Claim.summary) ClaimSummary.claimId
      s.getClaimCounter where
  key id x hx := by
    obtain ⟨claim, hclaim, rfl⟩ := Option.map_eq_some_iff.mp hx
    exact (hk id claim hclaim).1
  range id x hx := by
    obtain ⟨claim, hclaim, rfl⟩ := Option.map_eq_some_iff.mp hx
    exact ⟨hpos id claim hclaim, (hk id claim hclaim).2⟩

variable {holder : Address}

theorem range_of_getPolicy (hsound : s.PoliciesSound) (hcounted : s.PoliciesCounted) {id : Nat}
    {p : Policy} (hp : s.getPolicy holder id = some p) :
    p.policyId = id ∧ 0 < id ∧ id ≤ s.getPolicyCounter holder := by
  have hid := (hsound holder id p hp).policyId
  have hpos := (hsound holder id p hp).positive
  rw [hid] at hpos
  exact ⟨hid, hpos, hcounted.range holder id p hp⟩

variable (holder) in
theorem idKeyed_policies (hsound : s.PoliciesSound) (hcounted : s.PoliciesCounted) :
    IdKeyed (fun id => (s.getPolicy holder id).map fun p => p.summary s.sequence)
      PolicySummary.policyId (s.getPolicyCounter holder) where
  key id x hx := by
    obtain ⟨p, hp, rfl⟩ := Option.map_eq_some_iff.mp hx
    exact (range_of_getPolicy hsound hcounted hp).1
  range id x hx := by
    obtain ⟨p, hp, rfl⟩ := Option.map_eq_some_iff.mp hx
    exact (range_of_getPolicy hsound hcounted hp).2

/-- The policies of a holder that are not active now, in the order of their ids. -/
def State.inactivePolicies (s : State) (holder : Address) : List Policy :=
  ((idsAfter 0 (s.getPolicyCounter holder)).filterMap (s.getPolicy holder)).filter
    fun p => !isPolicyActiveByLedger p s.sequence

theorem getInactivePolicies_eq {pageSize : Nat} (hsize : pageSize ≤ INACTIVE_POLICIES_PAGE_SIZE_MAX)
    (hlimit : s.getPolicyCounter holder ≤ MAX_POLICIES_PER_HOLDER) (page : Nat) :
    s.getInactivePolicies holder page pageSize =
      .ok (((s.inactivePolicies holder).drop (page * pageSize)).take pageSize) := by
  have hlength : (s.inactivePolicies holder).length ≤ U32_MAX := by
    have hle : (s.inactivePolicies holder).length ≤ s.getPolicyCounter holder := by
      refine (List.length_filter_le _ _).trans ((List.length_filterMap_le _ _).trans ?_)
      rw [idsAfter, List.length_range']
      omega
    have hmax : MAX_POLICIES_PER_HOLDER ≤ U32_MAX := by decide
    omega
  have hdrop : (s.inactivePolicies holder).drop (min (page * pageSize) U32_MAX) =
      (s.inactivePolicies holder).drop (page * pageSize) := by
    rcases Nat.le_total (page * pageSize) U32_MAX with hle | hge
    · rw [Nat.min_eq_left hle]
    · rw [Nat.min_eq_right hge, List.drop_of_length_le hlength,
        List.drop_of_length_le (hlength.trans hge)]
  rw [State.getInactivePolicies, ensure, if_pos hsize]
  show Except.ok _ = _
  rw [scanInactive_eq _ 0 [] (Nat.zero_le _) (Nat.zero_le _) (fun _ => rfl), List.nil_append,
    Nat.sub_zero, ← hdrop]
  rfl

/-- **The pages of inactive policies make up all of them**, each once. -/
theorem inactive_pages (hsound : s.PoliciesSound) (hcounted : s.PoliciesCounted) {pageSize : Nat}
    (hpos : 1 ≤ pageSize) (hsize : pageSize ≤ INACTIVE_POLICIES_PAGE_SIZE_MAX) :
    (s.inactivePolicies holder).Pairwise (fun p q => p.policyId < q.policyId) ∧
    (∀ p, p ∈ s.inactivePolicies holder ↔
      (∃ id, s.getPolicy holder id = some p) ∧ isPolicyActiveByLedger p s.sequence = false) ∧
    ∃ last, ∀ n, last ≤ n → ∃ pages,
      (List.range n).mapM (fun page => s.getInactivePolicies holder page pageSize) = .ok pages ∧
        pages.flatten = s.inactivePolicies holder := by
  have hkeyed : IdKeyed (s.getPolicy holder) Policy.policyId (s.getPolicyCounter holder) :=
    ⟨fun _ _ hp => (range_of_getPolicy hsound hcounted hp).1,
      fun _ _ hp => (range_of_getPolicy hsound hcounted hp).2⟩
  refine ⟨(hkeyed.sorted 0).filter _, ?_, (s.inactivePolicies holder).length, ?_⟩
  · intro p
    rw [State.inactivePolicies, List.mem_filter, hkeyed.mem_iff, Bool.not_eq_true']
  · intro n hn
    refine ⟨(List.range n).map fun page =>
      ((s.inactivePolicies holder).drop (page * pageSize)).take pageSize, ?_, ?_⟩
    · simp only [getInactivePolicies_eq hsize (hcounted.limit holder)]
      exact List.mapM_pure
    · rw [flatten_pages, List.take_of_length_le]
      exact hn.trans (Nat.le_mul_of_pos_right n hpos)

end Listed

/-- **The listings are complete**, in every run without transfers.  Whatever the limit, the pages of
`list_claims` and of `list_policies` come to an end and give a summary of every claim, and of every
policy of the holder, once and in the order of the ids; and the numbered pages of
`get_inactive_policies` give every policy of the holder that is not active, once. -/
theorem listings_complete_of_reach {host : Host} {s : State}
    (h : (contract host).Reach Untransferred s) :
    (∀ limit, 1 ≤ limit → ∃ l,
      Reads (fun c => idPage ClaimSummary.claimId (s.listClaims c limit)) 0 l ∧
        l.Pairwise (fun x y => x.claimId < y.claimId) ∧
        ∀ x, x ∈ l ↔ ∃ id claim, s.getClaim id = some claim ∧ x = claim.summary) ∧
    (∀ holder limit, 1 ≤ limit → ∃ l,
      Reads (fun c => idPage PolicySummary.policyId (s.listPolicies holder c limit)) 0 l ∧
        l.Pairwise (fun x y => x.policyId < y.policyId) ∧
        ∀ x, x ∈ l ↔ ∃ id p, s.getPolicy holder id = some p ∧ x = p.summary s.sequence) ∧
    ∀ holder pageSize, 1 ≤ pageSize → pageSize ≤ INACTIVE_POLICIES_PAGE_SIZE_MAX →
      ∃ l : List Policy, l.Pairwise (fun p q => p.policyId < q.policyId) ∧
        (∀ p, p ∈ l ↔ (∃ id, s.getPolicy holder id = some p) ∧
          isPolicyActiveByLedger p s.sequence = false) ∧
        ∃ last, ∀ n, last ≤ n → ∃ pages,
          (List.range n).mapM (fun page => s.getInactivePolicies holder page pageSize) = .ok pages ∧
            pages.flatten = l := by
  have hk := claimsKeyed_of_reach h.to_always
  have hpos := claimsPositive_of_reach h.to_always
  have hsound := policiesSound_of_reach h.to_always
  have hcounted := policiesCounted_of_reach h
  have hcap : ∀ limit, 1 ≤ limit → 0 < min limit PAGE_SIZE_MAX := by
    intro limit hlimit
    rw [lt_min_iff]
    exact ⟨hlimit, by decide⟩
  refine ⟨?_, ?_, ?_⟩
  · intro limit hlimit
    obtain ⟨l, hreads, hsorted, hmem⟩ := (idKeyed_claims hk hpos).reads (hcap limit hlimit)
    refine ⟨l, hreads, hsorted, fun x => (hmem x).trans (exists_congr fun id => ?_)⟩
    rw [Option.map_eq_some_iff]
    exact exists_congr fun _ => and_congr_right fun _ => eq_comm
  · intro holder limit hlimit
    obtain ⟨l, hreads, hsorted, hmem⟩ :=
      (idKeyed_policies holder hsound hcounted).reads (hcap limit hlimit)
    refine ⟨l, hreads, hsorted, fun x => (hmem x).trans (exists_congr fun id => ?_)⟩
    rw [Option.map_eq_some_iff]
    exact exists_congr fun _ => and_congr_right fun _ => eq_comm
  · intro holder pageSize hmin hmax
    exact ⟨_, inactive_pages hsound hcounted hmin hmax⟩

def checkUntransferred (_ : State) : Label → Bool
  | .call _ (.policy (.transferPolicy ..)) => false
  | _ => true

theorem untransferred_of_check (s : State) (l : Label) (h : checkUntransferred s l = true) :
    Untransferred s l := by
  unfold checkUntransferred at h
  split at h
  · cases h
  · rename_i hother
    unfold Untransferred
    split
    · exact hother _ _ _ _ rfl
    · trivial

/-- Account 1 has two policies.  A page of one has the first of them, and all pages have the
second as well. -/
theorem listings_two_policies : ∃ s l p, (contract demoHost).Reach Untransferred s ∧
    (s.listPolicies 1 0 1).map PolicySummary.policyId = [1] ∧ s.getPolicy 1 2 = some p ∧
    Reads (fun c => idPage PolicySummary.policyId (s.listPolicies 1 c 1)) 0 l ∧
    p.summary s.sequence ∈ l := by
  obtain ⟨s, hreach, hval⟩ := exists_of_follow untransferred_of_check (deployed 0)
    [demoInit, demoBind 1 .auto 10000000, demoBind 1 .health 10000000]
    (f := fun s => ((s.listPolicies 1 0 1).map PolicySummary.policyId, (s.getPolicy 1 2).isSome))
    (a := ([1], true))
    (fresh_deployed (by decide)) (by simp [demoInit, demoBind]) (by decide +kernel)
  simp only [Prod.mk.injEq, Option.isSome_iff_exists] at hval
  obtain ⟨hpage, p, hp⟩ := hval
  obtain ⟨l, hreads, -, hmem⟩ := (listings_complete_of_reach hreach).2.1 1 1 (by decide)
  exact ⟨s, l, p, hreach, hpage, hp, hreads, (hmem _).mpr ⟨2, p, hp, rfl⟩⟩

end NiffyInsure
