import NiffyInsure.Backend.Indexer

/-!
# Catching up and backfilling

`processUntilCaughtUp` (`indexer.service.ts`) runs batches until one of them has processed no event,
and `processBackfillJob` (`backfill.worker.ts`) until as many events are processed as its range has
ledgers, or a batch has processed none.  A batch processes none also when it goes over 101 ledgers
without events, and neither loop asks where the cursor is.

`Chain.pageAt` is what the batches fetch, one after the other: it depends on the history, on where
the cursor starts and on what the RPC answers, and on nothing that is stored.

* `fetched_afterBatches`: what a run of batches leaves.
* `catch_up_and_backfill_iff`: when the two loops cover what they are called for.
-/

namespace NiffyInsure.Backend

/-- The answers to the batches of a call: the latest ledger that is read, and the ledger that is the
last closed one when the events are fetched. -/
structure Rpc where
  latest : Nat → Nat
  head : Nat → Nat
  latest_le : ∀ k, latest k ≤ head k
  head_le : ∀ k, head k ≤ head (k + 1)

/-! ## The loops -/

namespace Indexer

variable (s : Indexer) (chain : Chain) (rpc : Rpc)

/-- `processNextBatchForNetwork` when nothing interrupts it: how many events it has processed, and
what it leaves. -/
def processNextBatchForNetwork (latest : Nat) : Nat × Indexer :=
  if latest ≤ s.cursor then (0, s)
  else if s.page chain = [] then (0, s.advanceCursor (min (s.cursor + 1 + 100) latest))
  else ((s.page chain).length, s.processPage 0 (s.page chain))

/-- The batch with the number `k`. -/
def batch (k : Nat) : Nat × Indexer :=
  processNextBatchForNetwork { s with head := rpc.head k } chain (rpc.latest k)

end Indexer

/-- What `processUntilCaughtUp` returns, whether its safety cap has stopped it, the latest ledger
that its last batch has read, and what it leaves. -/
structure CatchUp where
  batches : Nat
  events : Nat
  capped : Bool
  latest : Nat
  state : Indexer

section

variable (chain : Chain) (rpc : Rpc)

/-- The loop of `processUntilCaughtUp`, with `left` batches to go after the next one before the
safety cap is hit. -/
def catchUpLoop (left batches events : Nat) (s : Indexer) : CatchUp :=
  let r := s.batch chain rpc batches
  if r.1 = 0 then ⟨batches + 1, events + r.1, false, rpc.latest batches, r.2⟩
  else
    match left with
    | 0 => ⟨batches + 1, events + r.1, true, rpc.latest batches, r.2⟩
    | left + 1 => catchUpLoop left (batches + 1) (events + r.1) r.2

/-- `processUntilCaughtUp`. -/
def processUntilCaughtUp (s : Indexer) : CatchUp := catchUpLoop chain rpc 10000 0 0 s

/-- The loop of `processBackfillJob`.  A pass that does not end it adds to `ledger`, so that
`toLedger + 1 - ledger` passes are enough for `left`. -/
def backfillLoop (toLedger : Nat) : Nat → Nat → Nat → Indexer → Indexer
  | 0, _, _, s => s
  | left + 1, k, ledger, s =>
    if ledger ≤ toLedger then
      let r := s.batch chain rpc k
      if r.1 = 0 then r.2 else backfillLoop toLedger left (k + 1) (ledger + r.1) r.2
    else s

/-- `processBackfillJob`. -/
def processBackfillJob (fromLedger toLedger : Nat) (s : Indexer) : Indexer :=
  backfillLoop chain rpc toLedger (toLedger + 1 - fromLedger) 0 fromLedger s

end

/-! ## The pages of a history -/

namespace Chain

variable (chain : Chain) (rpc : Rpc) (start : Nat)

/-- The events that the batch `k` fetches if it finds the cursor there. -/
def pageFrom (k cursor : Nat) : List ChainEvent :=
  if rpc.latest k ≤ cursor then [] else chain.getEvents (rpc.head k) (cursor + 1) BATCH_SIZE

/-- Where the cursor is before the batch `k`, if it was at `start` before the first one. -/
def cursorAt : Nat → Nat
  | 0 => start
  | k + 1 =>
    match (chain.pageFrom rpc k (cursorAt k)).getLast? with
    | some e => e.ledger
    | none => cursorAt k

/-- The events that the batch `k` fetches. -/
def pageAt (k : Nat) : List ChainEvent := chain.pageFrom rpc k (chain.cursorAt rpc start k)

/-- The number of events that the first `k` batches fetch. -/
def fetchedBefore : Nat → Nat
  | 0 => 0
  | k + 1 => fetchedBefore k + (chain.pageAt rpc start k).length

end Chain

section

variable {chain : Chain} {rpc : Rpc} {s : Indexer} {start k : Nat}

theorem mem_pageFrom {cursor : Nat} {e : ChainEvent} (he : e ∈ chain.pageFrom rpc k cursor) :
    e ∈ chain.events ∧ cursor < e.ledger ∧ e.ledger ≤ rpc.head k := by
  unfold Chain.pageFrom at he
  split at he
  · cases he
  · exact mem_between.mp (List.mem_of_mem_take he)

theorem pairwise_pageFrom {cursor : Nat} :
    (chain.pageFrom rpc k cursor).Pairwise fun e e' => e.ledger ≤ e'.ledger := by
  unfold Chain.pageFrom
  split
  · exact .nil
  · exact (chain.sorted.filter _).sublist (List.take_sublist _ _)

/-- If nothing is fetched although the cursor is behind, nothing is there. -/
theorem between_of_pageFrom {cursor : Nat} (h : chain.pageFrom rpc k cursor = [])
    (hlt : cursor < rpc.latest k) : chain.between (cursor + 1) (rpc.head k) = [] := by
  unfold Chain.pageFrom at h
  rw [if_neg (Nat.not_le_of_lt hlt), Chain.getEvents, List.take_eq_nil_iff] at h
  exact h.resolve_left (by decide)

theorem batch_of_pageFrom_ne (h : chain.pageFrom rpc k s.cursor ≠ []) :
    s.batch chain rpc k = ((chain.pageFrom rpc k s.cursor).length,
      Indexer.processPage { s with head := rpc.head k } 0 (chain.pageFrom rpc k s.cursor)) := by
  unfold Indexer.batch Indexer.processNextBatchForNetwork
  unfold Chain.pageFrom at h ⊢
  dsimp only
  split
  · rename_i hle
    rw [if_pos hle] at h
    exact absurd rfl h
  · rename_i hle
    rw [if_neg hle] at h
    exact if_neg h

/-- A batch that fetches nothing leaves the rows alone, and moves the cursor by 101 at most. -/
theorem batch_of_pageFrom_eq (h : chain.pageFrom rpc k s.cursor = []) :
    s.batch chain rpc k = (0, Indexer.advanceCursor { s with head := rpc.head k }
      (min (s.cursor + 1 + 100) (rpc.latest k))) := by
  unfold Indexer.batch Indexer.processNextBatchForNetwork
  dsimp only
  split
  · rename_i hle
    unfold Indexer.advanceCursor
    dsimp only
    rw [Nat.max_eq_left (Nat.le_trans (Nat.min_le_right _ _) hle)]
  · rename_i hle
    unfold Chain.pageFrom at h
    rw [if_neg hle] at h
    rw [if_pos]
    exact h

theorem batch_fst : (s.batch chain rpc k).1 = (chain.pageFrom rpc k s.cursor).length := by
  by_cases h : chain.pageFrom rpc k s.cursor = []
  · rw [batch_of_pageFrom_eq h, h, List.length_nil]
  · rw [batch_of_pageFrom_ne h]

end

/-! ## What a page stores -/

section

variable {chain : Chain} {s : Indexer} {l : List ChainEvent} {e : ChainEvent}

/-- **A page stores the events whose place is free under their transaction**, and no others. -/
theorem mem_stored_processPage_iff (i : Nat) :
    e ∈ (s.processPage i l).stored ↔
      e ∈ s.stored ∨ ∃ j : Nat, l[j]? = some e ∧ s.hasKey e.txHash (i + j) = false := by
  induction l generalizing s i with
  | nil => simp [Indexer.processPage]
  | cons e' l ih =>
    show e ∈ ((s.processEvent e' i).processPage (i + 1) l).stored ↔ _
    have hlater : (∃ j : Nat, l[j]? = some e ∧
        (s.processEvent e' i).hasKey e.txHash (i + 1 + j) = false) ↔
        ∃ j : Nat, l[j]? = some e ∧ s.hasKey e.txHash (i + (j + 1)) = false := by
      refine exists_congr fun j => and_congr_right fun _ => ?_
      rw [hasKey_processEvent (by omega), Nat.add_assoc, Nat.add_comm 1 j]
    have hfirst : e ∈ (s.processEvent e' i).stored ↔
        e ∈ s.stored ∨ e' = e ∧ s.hasKey e.txHash i = false := by
      by_cases hkey : s.hasKey e'.txHash i = true
      · rw [processEvent_of_key hkey]
        refine (or_iff_left ?_).symm
        rintro ⟨rfl, hfree⟩
        rw [hkey] at hfree
        cases hfree
      · rw [stored_processEvent hkey, List.mem_append, List.mem_singleton]
        refine or_congr_right ⟨?_, fun h => h.1.symm⟩
        rintro rfl
        exact ⟨rfl, by simpa using hkey⟩
    rw [ih (i + 1), hlater, hfirst, or_assoc]
    refine or_congr_right ⟨?_, ?_⟩
    · rintro (⟨rfl, hfree⟩ | ⟨j, hj, hfree⟩)
      · exact ⟨0, rfl, hfree⟩
      · exact ⟨j + 1, hj, hfree⟩
    · rintro ⟨_ | j, hj, hfree⟩
      · exact .inl ⟨Option.some.inj hj, hfree⟩
      · exact .inr ⟨j, hj, hfree⟩

theorem hasKey_processPage (h : ∀ e' ∈ l, e'.txHash ≠ e.txHash) (i j : Nat) :
    (s.processPage i l).hasKey e.txHash j = s.hasKey e.txHash j := by
  obtain ⟨new, hrows, -, hnew⟩ := processPage_rows (s := s) l i
  unfold Indexer.hasKey
  rw [hrows, List.any_append]
  have hnone : (new.any fun r => decide (r.txHash = e.txHash ∧ r.eventIndex = j)) = false := by
    rw [List.any_eq_false]
    intro r hr
    rw [decide_eq_true_eq, (hnew r hr).2]
    exact fun heq => h _ (hnew r hr).1 heq.1
  rw [hnone, Bool.or_false]

theorem cursor_processPage (hsorted : l.Pairwise fun e e' => e.ledger ≤ e'.ledger)
    (hlast : l.getLast? = some e) (hlt : s.cursor < e.ledger) (i : Nat) :
    (s.processPage i l).cursor = e.ledger := by
  obtain ⟨init, rfl⟩ := List.getLast?_eq_some_iff.mp hlast
  obtain ⟨-, hall, hend⟩ := processPage_cursor (s := s) (init ++ [e]) i
  have hle := hall e (by simp)
  rcases hend with hstay | ⟨e', he', heq⟩
  · omega
  · rcases List.mem_append.mp he' with hinit | hself
    · have hbefore := (List.pairwise_append.mp hsorted).2.2 e' hinit e (by simp)
      omega
    · rw [heq, List.mem_singleton.mp hself]

end

/-! ## What a run of batches leaves -/

section

variable (chain : Chain) (rpc : Rpc) (s : Indexer)

/-- What the first batches leave. -/
def Indexer.afterBatches : Nat → Indexer
  | 0 => s
  | k + 1 => ((afterBatches k).batch chain rpc k).2

/-- One of the first `n` batches fetches the event, at a place that is free under its
transaction. -/
def Indexer.FetchedAnew (n : Nat) (e : ChainEvent) : Prop :=
  ∃ k < n, ∃ i : Nat, (chain.pageAt rpc s.cursor k)[i]? = some e ∧ s.hasKey e.txHash i = false

/-- What is known after `n` batches that have all fetched something: the cursor is where the history
has it, the rows are those that there were and those for what was fetched anew, and nothing has
happened to the transactions above the cursor. -/
structure Indexer.Fetched (n : Nat) (t : Indexer) : Prop where
  cursor : t.cursor = chain.cursorAt rpc s.cursor n
  stored : ∀ e, e ∈ t.stored ↔ e ∈ s.stored ∨ s.FetchedAnew chain rpc n e
  above : ∀ e ∈ chain.events, t.cursor < e.ledger → ∀ i, t.hasKey e.txHash i = s.hasKey e.txHash i
  start : s.cursor ≤ t.cursor
  last : t.cursor = s.cursor ∨ ∃ e ∈ chain.events, e.ledger = t.cursor ∧ e.ledger ≤ rpc.head n

variable {chain rpc s}

theorem fetchedAnew_succ {n : Nat} {e : ChainEvent} :
    s.FetchedAnew chain rpc (n + 1) e ↔ s.FetchedAnew chain rpc n e ∨
      ∃ i : Nat, (chain.pageAt rpc s.cursor n)[i]? = some e ∧ s.hasKey e.txHash i = false := by
  constructor
  · rintro ⟨k, hk, hplace⟩
    rcases Nat.lt_succ_iff_lt_or_eq.mp hk with hlt | rfl
    · exact .inl ⟨k, hlt, hplace⟩
    · exact .inr hplace
  · rintro (⟨k, hk, hplace⟩ | hplace)
    · exact ⟨k, Nat.lt_succ_of_lt hk, hplace⟩
    · exact ⟨n, Nat.lt_succ_self n, hplace⟩

theorem Indexer.Fetched.zero : s.Fetched chain rpc 0 s where
  cursor := rfl
  stored e := by
    refine (or_iff_left ?_).symm
    rintro ⟨k, hk, -⟩
    exact Nat.not_lt_zero k hk
  above _ _ _ _ := rfl
  start := Nat.le_refl _
  last := .inl rfl

theorem Indexer.Fetched.succ {n : Nat} {t : Indexer} (h : s.Fetched chain rpc n t)
    (hne : chain.pageAt rpc s.cursor n ≠ []) :
    s.Fetched chain rpc (n + 1) (t.batch chain rpc n).2 := by
  have hpage : chain.pageFrom rpc n t.cursor = chain.pageAt rpc s.cursor n := by
    rw [h.cursor]
    rfl
  rw [batch_of_pageFrom_ne (by rwa [hpage]), hpage]
  obtain ⟨e, hlast⟩ := Option.ne_none_iff_exists'.mp
    (fun hnone => hne (List.getLast?_eq_none_iff.mp hnone))
  have hmem : ∀ e' ∈ chain.pageAt rpc s.cursor n,
      e' ∈ chain.events ∧ t.cursor < e'.ledger ∧ e'.ledger ≤ rpc.head n := by
    rw [← hpage]
    exact fun e' => mem_pageFrom
  have he := hmem e (List.mem_of_getLast? hlast)
  have hsorted : (chain.pageAt rpc s.cursor n).Pairwise fun e e' => e.ledger ≤ e'.ledger :=
    pairwise_pageFrom
  have hcursor : (Indexer.processPage { t with head := rpc.head n } 0
      (chain.pageAt rpc s.cursor n)).cursor = e.ledger :=
    cursor_processPage (s := { t with head := rpc.head n }) hsorted hlast he.2.1 0
  constructor
  · rw [hcursor, Chain.cursorAt]
    show _ = match (chain.pageAt rpc s.cursor n).getLast? with
      | some e => e.ledger
      | none => chain.cursorAt rpc s.cursor n
    rw [hlast]
  · intro e'
    rw [mem_stored_processPage_iff, fetchedAnew_succ, ← or_assoc]
    refine or_congr (h.stored e') (exists_congr fun i => and_congr_right fun hi => ?_)
    have he' := hmem e' (List.mem_of_getElem? hi)
    rw [Nat.zero_add]
    show t.hasKey e'.txHash i = false ↔ _
    rw [h.above e' he'.1 he'.2.1]
  · intro e' he' habove i
    rw [hcursor] at habove
    -- the page ends below the event, and so has nothing of its transaction
    rw [hasKey_processPage]
    · exact h.above e' he' (by omega) i
    · intro e'' he'' htx
      obtain ⟨init, hinit⟩ := List.getLast?_eq_some_iff.mp hlast
      have hledger := chain.oneLedger e'' (hmem e'' he'').1 e' he' htx
      have hle : e''.ledger ≤ e.ledger := by
        have hall := (processPage_cursor (s := { t with head := rpc.head n })
          (chain.pageAt rpc s.cursor n) 0).2.1 e'' he''
        rwa [hcursor] at hall
      omega
  · rw [hcursor]
    exact Nat.le_trans h.start (Nat.le_of_lt he.2.1)
  · rw [hcursor]
    exact .inr ⟨e, he.1, rfl, Nat.le_trans he.2.2 (rpc.head_le n)⟩

/-- **What is left by batches that have all fetched something.** -/
theorem fetched_afterBatches {n : Nat} (h : ∀ k < n, chain.pageAt rpc s.cursor k ≠ []) :
    s.Fetched chain rpc n (s.afterBatches chain rpc n) := by
  induction n with
  | zero => exact .zero
  | succ n ih =>
    exact (ih fun k hk => h k (Nat.lt_succ_of_lt hk)).succ (h n (Nat.lt_succ_self n))

theorem batch_afterBatches_fst {n : Nat} (h : ∀ k < n, chain.pageAt rpc s.cursor k ≠ []) :
    ((s.afterBatches chain rpc n).batch chain rpc n).1 =
      (chain.pageAt rpc s.cursor n).length := by
  rw [batch_fst, (fetched_afterBatches h).cursor]
  rfl

end

/-! ## What the loops leave -/

section

variable {chain : Chain} {rpc : Rpc} {s : Indexer}

@[simp] theorem processPage_head (l : List ChainEvent) (i : Nat) :
    (s.processPage i l).head = s.head := by
  induction l generalizing s i with
  | nil => rfl
  | cons e l ih =>
    show ((s.processEvent e i).processPage (i + 1) l).head = s.head
    rw [ih]
    unfold Indexer.processEvent
    split
    · rfl
    · rfl

theorem batch_head (k : Nat) : (s.batch chain rpc k).2.head = rpc.head k := by
  by_cases h : chain.pageFrom rpc k s.cursor = []
  · rw [batch_of_pageFrom_eq h]
    rfl
  · rw [batch_of_pageFrom_ne h, processPage_head]

theorem mem_stored_batch {n : Nat} (h : ∀ k < n, chain.pageAt rpc s.cursor k ≠ [])
    (e : ChainEvent) : e ∈ ((s.afterBatches chain rpc n).batch chain rpc n).2.stored ↔
      e ∈ s.stored ∨ s.FetchedAnew chain rpc (n + 1) e := by
  have hbefore := fetched_afterBatches h
  by_cases hne : chain.pageAt rpc s.cursor n = []
  · have hpage : chain.pageFrom rpc n (s.afterBatches chain rpc n).cursor = [] := by
      rw [hbefore.cursor]
      exact hne
    rw [batch_of_pageFrom_eq hpage, fetchedAnew_succ, hne]
    show e ∈ (s.afterBatches chain rpc n).stored ↔ _
    simp [hbefore.stored e]
  · exact (hbefore.succ hne).stored e

variable (chain rpc s) in
/-- The loop of the catch-up ends with the first batch that fetches nothing, or by the cap. -/
theorem catchUpLoop_spec (left k events : Nat) (h : ∀ j < k, chain.pageAt rpc s.cursor j ≠ []) :
    ∃ n, n ≤ k + left ∧ (∀ j < n, chain.pageAt rpc s.cursor j ≠ []) ∧
      (catchUpLoop chain rpc left k events (s.afterBatches chain rpc k)).latest = rpc.latest n ∧
      (catchUpLoop chain rpc left k events (s.afterBatches chain rpc k)).state =
        ((s.afterBatches chain rpc n).batch chain rpc n).2 ∧
      ((catchUpLoop chain rpc left k events (s.afterBatches chain rpc k)).capped = false ∧
          chain.pageAt rpc s.cursor n = [] ∨
        (catchUpLoop chain rpc left k events (s.afterBatches chain rpc k)).capped = true ∧
          chain.pageAt rpc s.cursor n ≠ [] ∧ n = k + left) := by
  have hfst := batch_afterBatches_fst h
  induction left generalizing k events with
  | zero =>
    refine ⟨k, Nat.le_refl _, h, ?_⟩
    rw [catchUpLoop, hfst]
    by_cases hnil : chain.pageAt rpc s.cursor k = []
    · rw [if_pos (List.length_eq_zero_iff.mpr hnil)]
      exact ⟨rfl, rfl, .inl ⟨rfl, hnil⟩⟩
    · rw [if_neg (fun hlen => hnil (List.length_eq_zero_iff.mp hlen))]
      exact ⟨rfl, rfl, .inr ⟨rfl, hnil, rfl⟩⟩
  | succ left ih =>
    rw [catchUpLoop, hfst]
    by_cases hnil : chain.pageAt rpc s.cursor k = []
    · rw [if_pos (List.length_eq_zero_iff.mpr hnil)]
      exact ⟨k, Nat.le_add_right _ _, h, rfl, rfl, .inl ⟨rfl, hnil⟩⟩
    · rw [if_neg (fun hlen => hnil (List.length_eq_zero_iff.mp hlen))]
      have hnext : ∀ j < k + 1, chain.pageAt rpc s.cursor j ≠ [] :=
        Nat.forall_lt_succ_right.mpr ⟨h, hnil⟩
      obtain ⟨n, hn, hfetching, hlatest, hstate, hends⟩ := ih (k + 1)
        (events + (chain.pageAt rpc s.cursor k).length) hnext (batch_afterBatches_fst hnext)
      rw [Nat.add_assoc, Nat.add_comm 1 left] at hn hends
      exact ⟨n, hn, hfetching, hlatest, hstate, hends⟩

/-- The last batch of the backfill: as many events are fetched as the range has ledgers, or none
more. -/
structure Chain.BackfillEnds (chain : Chain) (rpc : Rpc)
    (start fromLedger toLedger n : Nat) : Prop where
  fetching : ∀ k < n, chain.pageAt rpc start k ≠ []
  inside : fromLedger + chain.fetchedBefore rpc start n ≤ toLedger
  done : chain.pageAt rpc start n = [] ∨ toLedger <
    fromLedger + chain.fetchedBefore rpc start (n + 1)

variable (chain rpc s) in
theorem backfillLoop_spec (fromLedger toLedger left k : Nat)
    (h : ∀ j < k, chain.pageAt rpc s.cursor j ≠ [])
    (hinside : fromLedger + chain.fetchedBefore rpc s.cursor k ≤ toLedger)
    (hleft : toLedger + 1 - (fromLedger + chain.fetchedBefore rpc s.cursor k) ≤ left) :
    ∃ n, chain.BackfillEnds rpc s.cursor fromLedger toLedger n ∧
      backfillLoop chain rpc toLedger left k (fromLedger + chain.fetchedBefore rpc s.cursor k)
        (s.afterBatches chain rpc k) = ((s.afterBatches chain rpc n).batch chain rpc n).2 := by
  induction left generalizing k with
  | zero => omega
  | succ left ih =>
    have hfst := batch_afterBatches_fst h
    rw [backfillLoop, if_pos hinside]
    dsimp only
    rw [hfst]
    by_cases hnil : chain.pageAt rpc s.cursor k = []
    · rw [if_pos (List.length_eq_zero_iff.mpr hnil)]
      exact ⟨k, ⟨h, hinside, .inl hnil⟩, rfl⟩
    · have hlen : (chain.pageAt rpc s.cursor k).length ≠ 0 :=
        fun hlen => hnil (List.length_eq_zero_iff.mp hlen)
      have hsum : fromLedger + chain.fetchedBefore rpc s.cursor k +
          (chain.pageAt rpc s.cursor k).length =
          fromLedger + chain.fetchedBefore rpc s.cursor (k + 1) := Nat.add_assoc _ _ _
      rw [if_neg hlen, hsum]
      by_cases hmore : fromLedger + chain.fetchedBefore rpc s.cursor (k + 1) ≤ toLedger
      · exact ih (k + 1) (Nat.forall_lt_succ_right.mpr ⟨h, hnil⟩) hmore (by omega)
      · refine ⟨k, ⟨h, hinside, .inr (by omega)⟩, ?_⟩
        cases left with
        | zero => rfl
        | succ left =>
          rw [backfillLoop, if_neg hmore]

end

/-! ## When they cover what they are called for -/

section

variable (chain : Chain) (rpc : Rpc) (s : Indexer)

/-- The cursor has come to the latest ledger that was read, and every event between where it was and
that ledger is stored. -/
def CatchUp.Covers (r : CatchUp) : Prop :=
  r.latest ≤ r.state.cursor ∧
  ∀ e ∈ chain.events, s.cursor < e.ledger → e.ledger ≤ r.latest → e ∈ r.state.stored

/-- Every event of the range is stored, of those that have happened when the job completes. -/
def Chain.Backfilled (fromLedger toLedger : Nat) (t : Indexer) : Prop :=
  ∀ e ∈ chain.events, fromLedger ≤ e.ledger → e.ledger ≤ toLedger → e.ledger ≤ t.head → e ∈ t.stored

/-- The first batch that fetches nothing. -/
def Chain.FirstEmpty (start n : Nat) : Prop :=
  chain.pageAt rpc start n = [] ∧ ∀ k < n, chain.pageAt rpc start k ≠ []

/-- At the first batch that fetches nothing, the latest ledger is at most 101 ledgers after where
the cursor started or after some event, and the pages before have every event above the cursor that
is not stored, at a place that is free under its transaction. -/
def CatchUpFits : Prop :=
  ∀ n ≤ 10000, chain.FirstEmpty rpc s.cursor n →
    (rpc.latest n ≤ s.cursor + 101 ∨
      ∃ e ∈ chain.events, e.ledger ≤ rpc.head n ∧ rpc.latest n ≤ e.ledger + 101) ∧
    ∀ e ∈ chain.events, s.cursor < e.ledger → e.ledger ≤ rpc.latest n →
      e ∈ s.stored ∨ s.FetchedAnew chain rpc n e

/-- The pages from the cursor on, up to the one with which they have as many events as the range has
ledgers, have every event of the range that is not stored, at a place that is free under its
transaction. -/
def BackfillFits (fromLedger toLedger : Nat) : Prop :=
  ∀ n, chain.BackfillEnds rpc s.cursor fromLedger toLedger n →
    ∀ e ∈ chain.events, fromLedger ≤ e.ledger → e.ledger ≤ toLedger → e.ledger ≤ rpc.head n →
      e ∈ s.stored ∨ s.FetchedAnew chain rpc (n + 1) e

variable {chain rpc s}

theorem Chain.FirstEmpty.unique {start n n' : Nat} (h : chain.FirstEmpty rpc start n)
    (h' : chain.FirstEmpty rpc start n') : n = n' := by
  rcases Nat.lt_trichotomy n n' with hlt | heq | hlt
  · exact absurd h.1 (h'.2 n hlt)
  · exact heq
  · exact absurd h'.1 (h.2 n' hlt)

theorem fetchedBefore_mono {start n n' : Nat} (h : n ≤ n') :
    chain.fetchedBefore rpc start n ≤ chain.fetchedBefore rpc start n' := by
  induction h with
  | refl => exact Nat.le_refl _
  | step _ ih => exact Nat.le_trans ih (Nat.le_add_right _ _)

theorem Chain.BackfillEnds.not_lt {start fromLedger toLedger n n' : Nat}
    (h : chain.BackfillEnds rpc start fromLedger toLedger n)
    (h' : chain.BackfillEnds rpc start fromLedger toLedger n') : ¬ n < n' := by
  intro hlt
  rcases h.done with hnil | hbeyond
  · exact h'.fetching n hlt hnil
  · have hle : chain.fetchedBefore rpc start (n + 1) ≤ chain.fetchedBefore rpc start n' :=
      fetchedBefore_mono hlt
    have hinside := h'.inside
    omega

theorem Chain.BackfillEnds.unique {start fromLedger toLedger n n' : Nat}
    (h : chain.BackfillEnds rpc start fromLedger toLedger n)
    (h' : chain.BackfillEnds rpc start fromLedger toLedger n') : n = n' :=
  Nat.le_antisymm (Nat.le_of_not_lt (h'.not_lt h)) (Nat.le_of_not_lt (h.not_lt h'))

theorem latest_le_cursor_iff {n : Nat} (h : chain.FirstEmpty rpc s.cursor n) :
    rpc.latest n ≤ ((s.afterBatches chain rpc n).batch chain rpc n).2.cursor ↔
      rpc.latest n ≤ s.cursor + 101 ∨
        ∃ e ∈ chain.events, e.ledger ≤ rpc.head n ∧ rpc.latest n ≤ e.ledger + 101 := by
  have hbefore := fetched_afterBatches h.2
  have hpage : chain.pageFrom rpc n (s.afterBatches chain rpc n).cursor = [] := by
    rw [hbefore.cursor]
    exact h.1
  have hstart := hbefore.start
  rw [batch_of_pageFrom_eq hpage]
  show rpc.latest n ≤ max (s.afterBatches chain rpc n).cursor _ ↔ _
  constructor
  · intro hle
    rcases hbefore.last with hsame | ⟨e, he, hledger, hhead⟩
    · exact .inl (by omega)
    · exact .inr ⟨e, he, hhead, by omega⟩
  · rintro (hle | ⟨e, he, hhead, hle⟩)
    · omega
    · by_cases hcaught : rpc.latest n ≤ (s.afterBatches chain rpc n).cursor
      · exact Nat.le_trans hcaught (Nat.le_max_left _ _)
      · -- the event is not after the cursor, since nothing is there to be fetched
        have hnone := between_of_pageFrom hpage (Nat.lt_of_not_le hcaught)
        have hnot : e ∉ chain.between ((s.afterBatches chain rpc n).cursor + 1) (rpc.head n) := by
          rw [hnone]
          exact List.not_mem_nil
        rw [mem_between] at hnot
        have hledger : e.ledger ≤ (s.afterBatches chain rpc n).cursor := by
          by_contra hlt
          exact hnot ⟨he, by omega, hhead⟩
        omega

theorem catch_up_covers_iff :
    ((processUntilCaughtUp chain rpc s).capped = false →
      (processUntilCaughtUp chain rpc s).Covers chain s) ↔ CatchUpFits chain rpc s := by
  obtain ⟨n, hn, hfetching, hlatest, hstate, hends⟩ :=
    catchUpLoop_spec chain rpc s 10000 0 0 (fun j hj => by omega)
  rw [Nat.zero_add] at hn hends
  change (processUntilCaughtUp chain rpc s).latest = _ at hlatest
  change (processUntilCaughtUp chain rpc s).state = _ at hstate
  change (processUntilCaughtUp chain rpc s).capped = false ∧ _ ∨
    (processUntilCaughtUp chain rpc s).capped = true ∧ _ at hends
  rcases hends with ⟨hcapped, hnil⟩ | ⟨hcapped, hmore, rfl⟩
  · have hfirst : chain.FirstEmpty rpc s.cursor n := ⟨hnil, hfetching⟩
    have hcovers : (processUntilCaughtUp chain rpc s).Covers chain s ↔
        (rpc.latest n ≤ s.cursor + 101 ∨
          ∃ e ∈ chain.events, e.ledger ≤ rpc.head n ∧ rpc.latest n ≤ e.ledger + 101) ∧
        ∀ e ∈ chain.events, s.cursor < e.ledger → e.ledger ≤ rpc.latest n →
          e ∈ s.stored ∨ s.FetchedAnew chain rpc n e := by
      unfold CatchUp.Covers
      rw [hlatest, hstate, latest_le_cursor_iff hfirst]
      refine and_congr_right fun _ => forall₄_congr fun e _ _ _ => ?_
      rw [mem_stored_batch hfetching, fetchedAnew_succ, hnil]
      simp
    constructor
    · intro h n' _ hfirst'
      cases hfirst.unique hfirst'
      exact hcovers.mp (h hcapped)
    · exact fun h _ => hcovers.mpr (h n hn hfirst)
  · -- the cap was hit, and so every batch up to it has fetched something
    refine iff_of_true (fun huncapped => by simp [hcapped] at huncapped) ?_
    intro n' hn' hfirst'
    rcases Nat.lt_or_eq_of_le hn' with hlt | rfl
    · exact absurd hfirst'.1 (hfetching n' hlt)
    · exact absurd hfirst'.1 hmore

theorem backfilled_iff (fromLedger toLedger : Nat) :
    chain.Backfilled fromLedger toLedger (processBackfillJob chain rpc fromLedger toLedger s) ↔
      BackfillFits chain rpc s fromLedger toLedger := by
  by_cases hrange : fromLedger ≤ toLedger
  · obtain ⟨n, hends, hstate⟩ := backfillLoop_spec chain rpc s fromLedger toLedger
      (toLedger + 1 - fromLedger) 0 (fun j hj => by omega) hrange (Nat.le_refl _)
    change processBackfillJob chain rpc fromLedger toLedger s = _ at hstate
    have hbackfilled : chain.Backfilled fromLedger toLedger
        (processBackfillJob chain rpc fromLedger toLedger s) ↔
        ∀ e ∈ chain.events, fromLedger ≤ e.ledger → e.ledger ≤ toLedger → e.ledger ≤ rpc.head n →
          e ∈ s.stored ∨ s.FetchedAnew chain rpc (n + 1) e := by
      unfold Chain.Backfilled
      rw [hstate, batch_head]
      simp only [mem_stored_batch hends.fetching]
    constructor
    · intro h n' hends'
      cases hends.unique hends'
      exact hbackfilled.mp h
    · exact fun h => hbackfilled.mpr (h n hends)
  · refine iff_of_true (fun e _ hfrom hto => by omega) ?_
    intro n _ e _ hfrom hto
    omega

/-- **When catching up and backfilling cover what they are called for**, whatever the history, the
answers of the RPC and the rows that are there. -/
theorem catch_up_and_backfill_iff (chain : Chain) (rpc : Rpc) (s : Indexer) :
    (((processUntilCaughtUp chain rpc s).capped = false →
      (processUntilCaughtUp chain rpc s).Covers chain s) ↔ CatchUpFits chain rpc s) ∧
    ∀ fromLedger toLedger,
      chain.Backfilled fromLedger toLedger (processBackfillJob chain rpc fromLedger toLedger s) ↔
        BackfillFits chain rpc s fromLedger toLedger :=
  ⟨catch_up_covers_iff, backfilled_iff⟩

end

/-! ## A gap, and a cursor that is past the range -/

/-- One event, at ledger 200. -/
def lateChain : Chain where
  events := [⟨0, 200, "aa"⟩]
  nodup := by decide
  sorted := by decide
  oneLedger := by decide

/-- The ledger 400 is the last one throughout. -/
def at400 : Rpc := ⟨fun _ => 400, fun _ => 400, fun _ => Nat.le_refl _, fun _ => Nat.le_refl _⟩

/-- Nothing is stored, and the cursor is at the ledger. -/
def emptyAt (cursor : Nat) : Indexer := ⟨400, cursor, [], [], cursor⟩

instance (chain : Chain) (s : Indexer) (r : CatchUp) : Decidable (r.Covers chain s) :=
  inferInstanceAs (Decidable (_ ∧ ∀ e ∈ chain.events, _))

instance (chain : Chain) (fromLedger toLedger : Nat) (t : Indexer) :
    Decidable (chain.Backfilled fromLedger toLedger t) :=
  inferInstanceAs (Decidable (∀ e ∈ chain.events, _))

/-- From ledger 0, the second batch goes over the ledgers from 201 to 301 and ends the catch-up.
With the cursor at 250, the backfill of the ledger 200 fetches nothing. -/
theorem catch_up_stops_in_gap :
    ((processUntilCaughtUp lateChain at400 (emptyAt 0)).capped = false ∧
      (processUntilCaughtUp lateChain at400 (emptyAt 0)).latest = 400 ∧
      (processUntilCaughtUp lateChain at400 (emptyAt 0)).state.cursor = 301 ∧
      ¬ (processUntilCaughtUp lateChain at400 (emptyAt 0)).Covers lateChain (emptyAt 0)) ∧
    (processBackfillJob lateChain at400 200 200 (emptyAt 250)).stored = [] ∧
      ¬ lateChain.Backfilled 200 200 (processBackfillJob lateChain at400 200 200
        (emptyAt 250)) := by
  decide

end NiffyInsure.Backend
