import NiffyInsure.Backend.Indexer

/-!
# Whether the indexer sees every event once

The cursor is a ledger, and it goes up to the ledger of every event that was processed, although
more events of that ledger may come; the next fetch starts after it.  So an event is lost when the
limit of the page or a crash falls between two events of one ledger
(`event_lost_in_split_ledger`).  And the place in the page, by which an event is recognised, depends
on where the page starts, so that an event that is read again from another start is stored and
handled again (`event_handled_again`).

* `exactly_once_of_reach`: as long as ledgers are not split, everything from the first ledger up to
  the cursor is stored and handled once; a batch that splits a ledger loses an event.
* `reindexed_once_of_reach`: the same with the cursor set back any number of times, as long as the
  stored events are read again at the places that they were stored from.
-/

namespace NiffyInsure.Backend

open Indexer (Action)

section

variable (chain : Chain) (s : Indexer)

/-! ## Conditions on a batch -/

/-- The events that a step processes. -/
def Indexer.taken : Action → List ChainEvent
  | .batch latest done => if latest ≤ s.cursor then [] else (s.page chain).take done
  | .closeLedgers _ => []
  | .reindex _ => []

/-- Neither the limit of the page nor a crash splits a ledger. -/
def WholeLedgers (a : Action) : Prop :=
  ∀ e ∈ s.taken chain a, ∀ e' ∈ chain.events, e'.ledger = e.ledger → e' ∈ s.taken chain a

/-- A ledger that is split is stored entirely. -/
def WholeOrStored (a : Action) : Prop :=
  ∀ e ∈ s.taken chain a,
    (∀ e' ∈ chain.events, e'.ledger = e.ledger → e' ∈ s.taken chain a) ∨
      ∀ e' ∈ chain.events, e'.ledger = e.ledger → e' ∈ s.stored

/-- The events that are stored already stand in the page where they stood when they were
stored. -/
def SamePlaces (a : Action) : Prop :=
  ∀ p ∈ (s.taken chain a).zipIdx, ∀ r ∈ s.rawEvents, r.event = p.1 → r.eventIndex = p.2

/-- The cursor is not set back. -/
def NoReindex (a : Action) : Prop := ∀ fromLedger, a ≠ .reindex fromLedger

instance (a : Action) : Decidable (WholeLedgers chain s a) :=
  inferInstanceAs (Decidable (∀ e ∈ s.taken chain a, _))

instance (a : Action) : Decidable (WholeOrStored chain s a) :=
  inferInstanceAs (Decidable (∀ e ∈ s.taken chain a, _))

instance (a : Action) : Decidable (SamePlaces chain s a) :=
  inferInstanceAs (Decidable (∀ p ∈ (s.taken chain a).zipIdx, _))

theorem not_noReindex (fromLedger : Nat) : ¬ NoReindex (.reindex fromLedger) :=
  fun h => h fromLedger rfl

theorem noReindex_batch (latest done : Nat) : NoReindex (.batch latest done) := by
  intro fromLedger h
  cases h

theorem noReindex_closeLedgers (head : Nat) : NoReindex (.closeLedgers head) := by
  intro fromLedger h
  cases h

instance (a : Action) : Decidable (NoReindex a) :=
  match a with
  | .reindex fromLedger => isFalse (not_noReindex fromLedger)
  | .batch latest done => isTrue (noReindex_batch latest done)
  | .closeLedgers head => isTrue (noReindex_closeLedgers head)

/-- Every event from the first ledger up to the cursor has one row and was handled once. -/
def Indexer.ExactlyOnce : Prop :=
  ∀ e ∈ chain.events, s.low < e.ledger → e.ledger ≤ s.cursor →
    s.stored.count e = 1 ∧ s.handled.count e = 1

instance : Decidable (s.ExactlyOnce chain) := inferInstanceAs (Decidable (∀ e ∈ chain.events, _))

end

/-! ## What one step does -/

section

variable {chain : Chain} {s s' : Indexer} {a : Action}

theorem exists_taken_eq (chain : Chain) (s : Indexer) (a : Action) :
    ∃ n, s.taken chain a = (chain.between (s.cursor + 1) s.head).take n := by
  cases a with
  | closeLedgers head => exact ⟨0, rfl⟩
  | reindex fromLedger => exact ⟨0, rfl⟩
  | batch latest done =>
    rw [Indexer.taken]
    split
    · exact ⟨0, rfl⟩
    · rw [Indexer.page, Chain.getEvents, List.take_take]
      exact ⟨_, rfl⟩

/-- A step processes a page, goes over ledgers without events, closes ledgers or sets the cursor
back. -/
theorem indexer_act_cases (h : s.act chain a = some s') :
    s' = s.processPage 0 (s.taken chain a) ∨
    (s.taken chain a = [] ∧ chain.between (s.cursor + 1) s.head = [] ∧
      ∃ n ≤ s.head, s' = s.advanceCursor n) ∨
    (s.taken chain a = [] ∧ ∃ head, s' = { s with head }) ∨
    ∃ fromLedger, a = .reindex fromLedger ∧ fromLedger - 1 ≤ s.cursor ∧
      s' = s.enqueueReindex fromLedger := by
  cases a with
  | closeLedgers head =>
    simp only [Indexer.act] at h
    split at h
    · cases h
      exact .inr (.inr (.inl ⟨rfl, head, rfl⟩))
    · cases h
  | reindex fromLedger =>
    simp only [Indexer.act] at h
    split at h
    · rename_i hle
      cases h
      exact .inr (.inr (.inr ⟨fromLedger, rfl, hle, rfl⟩))
    · cases h
  | batch latest done =>
    simp only [Indexer.act] at h
    split at h
    · rename_i hlatest
      cases h
      unfold Indexer.processNextBatch
      by_cases hcaught : latest ≤ s.cursor
      · refine .inl ?_
        rw [if_pos hcaught, Indexer.taken, if_pos hcaught]
        rfl
      · have htaken : s.taken chain (.batch latest done) = (s.page chain).take done :=
          if_neg hcaught
        rw [if_neg hcaught]
        split
        · rename_i hempty
          have hnone : chain.between (s.cursor + 1) s.head = [] := by
            rw [Indexer.page, Chain.getEvents, List.take_eq_nil_iff] at hempty
            exact hempty.resolve_left (by decide)
          rw [htaken, hempty, List.take_nil]
          split
          · exact .inl rfl
          · exact .inr (.inl ⟨rfl, hnone, _, Nat.le_trans (Nat.min_le_right _ _) hlatest, rfl⟩)
        · rw [htaken]
          exact .inl rfl
    · cases h

theorem nodup_taken (a : Action) : (s.taken chain a).Nodup := by
  obtain ⟨n, htaken⟩ := exists_taken_eq chain s a
  rw [htaken]
  exact nodup_take_between

theorem mem_between_of_taken {e : ChainEvent} (he : e ∈ s.taken chain a) :
    e ∈ chain.between (s.cursor + 1) s.head := by
  obtain ⟨n, htaken⟩ := exists_taken_eq chain s a
  rw [htaken] at he
  exact List.mem_of_mem_take he

theorem mem_taken_of_lt {e e' : ChainEvent} (he : e ∈ s.taken chain a) (he' : e' ∈ chain.events)
    (hcursor : s.cursor < e'.ledger) (hlt : e'.ledger < e.ledger) : e' ∈ s.taken chain a := by
  have hbetween := mem_between.mp (mem_between_of_taken he)
  obtain ⟨n, htaken⟩ := exists_taken_eq chain s a
  rw [htaken] at he ⊢
  exact mem_take_between he (mem_between.mpr ⟨he', hcursor, by omega⟩) hlt

theorem mem_stored_processPage {es : List ChainEvent} {e : ChainEvent}
    (he : e ∈ (s.processPage 0 es).stored) : e ∈ s.stored ∨ e ∈ es := by
  obtain ⟨new, hrows, -, hnew⟩ := processPage_rows (s := s) es 0
  rw [Indexer.stored, hrows, List.map_append, List.mem_append] at he
  rcases he with he | he
  · exact .inl he
  · obtain ⟨r, hr, rfl⟩ := List.mem_map.mp he
    exact .inr (hnew r hr).1

end

/-! ## What every run keeps -/

/-- The handlers were given what is stored, the rows are those of events of the chain and have
different keys, and the cursor is not below the first ledger. -/
structure Indexer.Kept (chain : Chain) (s : Indexer) : Prop where
  handled : s.handled = s.stored
  keys : (s.rawEvents.map RawEvent.key).Nodup
  rows : ∀ r ∈ s.rawEvents, r.txHash = r.event.txHash ∧ r.event ∈ chain.events
  low : s.low ≤ s.cursor

section

variable {chain : Chain} {s s' : Indexer} {a : Action} {ok : Indexer → Action → Prop}

theorem kept_of_act (h : s.act chain a = some s') (hs : s.Kept chain) : s'.Kept chain := by
  rcases indexer_act_cases h with rfl | ⟨-, -, n, -, rfl⟩ | ⟨-, head, rfl⟩ | ⟨fromLedger, -, hle,
    rfl⟩
  · obtain ⟨new, hrows, hhandled, hnew⟩ := processPage_rows (s := s) (s.taken chain a) 0
    refine ⟨?_, nodup_keys_processPage _ _ hs.keys, ?_, ?_⟩
    · rw [hhandled, hs.handled, Indexer.stored, Indexer.stored, hrows, List.map_append]
    · intro r hr
      rw [hrows, List.mem_append] at hr
      rcases hr with hr | hr
      · exact hs.rows r hr
      · have hmem := mem_between_of_taken (hnew r hr).1
        exact ⟨(hnew r hr).2, (mem_between.mp hmem).1⟩
    · rw [processPage_low]
      exact Nat.le_trans hs.low (processPage_cursor _ _).1
  · exact ⟨hs.handled, hs.keys, hs.rows, Nat.le_trans hs.low (Nat.le_max_left _ _)⟩
  · exact ⟨hs.handled, hs.keys, hs.rows, hs.low⟩
  · exact ⟨hs.handled, hs.keys, hs.rows, Nat.min_le_right _ _⟩

theorem kept_of_reach (h : (indexing chain).Reach ok s) : s.Kept chain := by
  refine h.invariant ?_ ?_
  · rintro s ⟨hrows, hhandled, hlow⟩
    refine ⟨?_, ?_, ?_, Nat.le_of_eq hlow⟩
    · rw [hhandled, Indexer.stored, hrows]
      rfl
    · rw [hrows]
      exact List.nodup_nil
    · rw [hrows]
      simp
  · intro s a s' _ hstep hs
    exact kept_of_act hstep hs

/-! ## Every event once -/

/-- No event is stored twice, and every event from the first ledger up to the cursor is stored. -/
structure Indexer.Sound (chain : Chain) (s : Indexer) : Prop where
  once : s.stored.Nodup
  complete : ∀ e ∈ chain.events, s.low < e.ledger → e.ledger ≤ s.cursor → e ∈ s.stored

theorem exactlyOnce_of_sound (hkept : s.Kept chain) (hs : s.Sound chain) : s.ExactlyOnce chain := by
  intro e he hlow hcursor
  have hcount : s.stored.count e = 1 :=
    List.count_eq_one_of_mem hs.once (hs.complete e he hlow hcursor)
  rw [hkept.handled]
  exact ⟨hcount, hcount⟩

theorem recognises_taken (hkept : s.Kept chain) (hwhole : WholeOrStored chain s a)
    (hplaces : SamePlaces chain s a) : s.Recognises 0 (s.taken chain a) := by
  intro j e hj
  rw [Nat.zero_add]
  have hplace : ∀ i e', (s.taken chain a)[i]? = some e' → ∀ r ∈ s.rawEvents, r.event = e' →
      r.eventIndex = i := fun i e' hi r hr hre =>
    hplaces (e', i) (List.mem_zipIdx_iff_getElem?.mpr hi) r hr hre
  constructor
  · intro hkey
    obtain ⟨r, hr, hrkey⟩ := List.any_eq_true.mp hkey
    rw [decide_eq_true_eq] at hrkey
    obtain ⟨htx, hindex⟩ := hrkey
    obtain ⟨hrtx, hrchain⟩ := hkept.rows r hr
    have he : e ∈ s.taken chain a := List.mem_of_getElem? hj
    have hechain : e ∈ chain.events := (mem_between.mp (mem_between_of_taken he)).1
    -- a row for this hash is one for an event of the same ledger
    have hledger : r.event.ledger = e.ledger :=
      chain.oneLedger _ hrchain _ hechain (hrtx.symm.trans htx)
    rcases hwhole e he with hall | hall
    · obtain ⟨i, hi⟩ := List.mem_iff_getElem?.mp (hall r.event hrchain hledger)
      have hij : i = j := (hplace i r.event hi r hr rfl).symm.trans hindex
      rw [hij, hj] at hi
      rw [Option.some.inj hi]
      exact List.mem_map_of_mem hr
    · exact hall e hechain rfl
  · intro hstored
    obtain ⟨r, hr, hre⟩ := List.mem_map.mp hstored
    refine List.any_eq_true.mpr ⟨r, hr, ?_⟩
    rw [decide_eq_true_eq]
    exact ⟨by rw [(hkept.rows r hr).1, hre], hplace j e hj r hr hre⟩

theorem sound_of_act (h : s.act chain a = some s') (hkept : s.Kept chain)
    (hwhole : WholeOrStored chain s a) (hplaces : SamePlaces chain s a) (hs : s.Sound chain) :
    s'.Sound chain := by
  rcases indexer_act_cases h with rfl | ⟨-, hnone, n, hn, rfl⟩ | ⟨-, head, rfl⟩ |
    ⟨fromLedger, -, hle, rfl⟩
  · have hstored := stored_processPage (nodup_taken a) (recognises_taken hkept hwhole hplaces)
    constructor
    · rw [hstored, List.nodup_append]
      refine ⟨hs.once, (nodup_taken a).filter _, ?_⟩
      intro e he e' he' heq
      have hnew : e' ∉ s.stored := by simpa using List.of_mem_filter he'
      exact hnew (heq ▸ he)
    · intro e he hlow hcursor
      rw [hstored, List.mem_append]
      by_cases hbefore : e ∈ s.stored
      · exact .inl hbefore
      · refine .inr (List.mem_filter.mpr ⟨?_, by simpa using hbefore⟩)
        rw [processPage_low] at hlow
        have habove : s.cursor < e.ledger := by
          by_contra hnot
          exact hbefore (hs.complete e he hlow (by omega))
        -- the cursor has come to the ledger of some event of the page
        rcases (processPage_cursor (s := s) (s.taken chain a) 0).2.2 with hstay | ⟨e₁, he₁, hlast⟩
        · omega
        · rcases Nat.lt_or_ge e.ledger e₁.ledger with hlt | hge
          · exact mem_taken_of_lt he₁ he habove hlt
          · have heq : e.ledger = e₁.ledger := by omega
            rcases hwhole e₁ he₁ with hall | hall
            · exact hall e he heq
            · exact absurd (hall e he heq) hbefore
  · refine ⟨hs.once, ?_⟩
    intro e he hlow hcursor
    have hmax : e.ledger ≤ max s.cursor n := hcursor
    by_cases hold : e.ledger ≤ s.cursor
    · exact hs.complete e he hlow hold
    · have hmem : e ∈ chain.between (s.cursor + 1) s.head :=
        mem_between.mpr ⟨he, by omega, by omega⟩
      rw [hnone] at hmem
      cases hmem
  · exact ⟨hs.once, hs.complete⟩
  · refine ⟨hs.once, ?_⟩
    intro e he hlow hcursor
    have hlow' : min s.low (fromLedger - 1) < e.ledger := hlow
    have hcursor' : e.ledger ≤ fromLedger - 1 := hcursor
    exact hs.complete e he (by omega) (by omega)

theorem sound_of_reach
    (h : (indexing chain).Reach (fun s a => WholeOrStored chain s a ∧ SamePlaces chain s a) s) :
    s.Sound chain := by
  refine Machine.Reach.invariant_with (fun _ => kept_of_reach) ?_ ?_ h
  · rintro s ⟨hrows, -, hlow⟩
    refine ⟨by rw [Indexer.stored, hrows]; exact List.nodup_nil, ?_⟩
    intro e _ hlow' hcursor
    omega
  · rintro s a s' hkept ⟨hwhole, hplaces⟩ hstep hs
    exact sound_of_act hstep hkept hwhole hplaces hs

/-- However often the cursor is set back: if the pages show stored events at the places that they
were stored from, and no ledger is split that is not stored entirely, every event has one row and
was handled once, and a key is the key of one event. -/
theorem reindexed_once_of_reach
    (h : (indexing chain).Reach (fun s a => WholeOrStored chain s a ∧ SamePlaces chain s a) s) :
    s.ExactlyOnce chain ∧ (∀ e, s.stored.count e ≤ 1 ∧ s.handled.count e ≤ 1) ∧
      ∀ r ∈ s.rawEvents, ∀ r' ∈ s.rawEvents,
        (r.txHash = r'.txHash ∧ r.eventIndex = r'.eventIndex) ↔ r.event = r'.event := by
  have hkept := kept_of_reach h
  have hs := sound_of_reach h
  refine ⟨exactlyOnce_of_sound hkept hs, ?_, ?_⟩
  · intro e
    rw [hkept.handled]
    exact ⟨List.nodup_iff_count_le_one.mp hs.once e, List.nodup_iff_count_le_one.mp hs.once e⟩
  · intro r hr r' hr'
    constructor
    · rintro ⟨htx, hindex⟩
      have hrow : r = r' := List.inj_on_of_nodup_map hkept.keys hr hr' (Prod.ext htx hindex)
      rw [hrow]
    · intro hevent
      have hrow : r = r' := List.inj_on_of_nodup_map hs.once hr hr' hevent
      rw [hrow]
      exact ⟨rfl, rfl⟩

/-! ## Without setting the cursor back -/

/-- Nothing is stored above the cursor. -/
def Indexer.Behind (s : Indexer) : Prop := ∀ e ∈ s.stored, e.ledger ≤ s.cursor

theorem behind_of_act (h : s.act chain a = some s') (hno : NoReindex a) (hs : s.Behind) :
    s'.Behind := by
  rcases indexer_act_cases h with rfl | ⟨-, -, n, -, rfl⟩ | ⟨-, head, rfl⟩ | ⟨fromLedger, rfl, -, -⟩
  · obtain ⟨hle, hall, -⟩ := processPage_cursor (s := s) (s.taken chain a) 0
    intro e he
    rcases mem_stored_processPage he with he | he
    · exact Nat.le_trans (hs e he) hle
    · exact hall e he
  · intro e he
    exact Nat.le_trans (hs e he) (Nat.le_max_left _ _)
  · exact hs
  · exact absurd rfl (hno fromLedger)

theorem behind_of_reach (hok : ∀ s a, ok s a → NoReindex a) (h : (indexing chain).Reach ok s) :
    s.Behind := by
  refine h.invariant ?_ ?_
  · rintro s ⟨hrows, -, -⟩ e he
    rw [Indexer.stored, hrows] at he
    cases he
  · intro s a s' ha hstep hs
    exact behind_of_act hstep (hok s a ha) hs

theorem not_stored_of_taken {e : ChainEvent} (hs : s.Behind) (he : e ∈ s.taken chain a) :
    e ∉ s.stored := by
  intro hstored
  have hle := hs e hstored
  have hmem := mem_between.mp (mem_between_of_taken he)
  omega

theorem not_exactlyOnce_of_act (h : s.act chain a = some s') (hkept : s.Kept chain)
    (hs : s.Behind) (hsplit : ¬ WholeLedgers chain s a) : ¬ s'.ExactlyOnce chain := by
  unfold WholeLedgers at hsplit
  push Not at hsplit
  obtain ⟨e, he, e', he', hledger, hlost⟩ := hsplit
  have hmem := mem_between.mp (mem_between_of_taken he)
  rcases indexer_act_cases h with rfl | ⟨hnone, -⟩ | ⟨hnone, -⟩ | ⟨fromLedger, rfl, -, -⟩
  · have hcursor := (processPage_cursor (s := s) (s.taken chain a) 0).2.1 e he
    have hmissing : e' ∉ (s.processPage 0 (s.taken chain a)).stored := by
      intro hstored
      rcases mem_stored_processPage hstored with hstored | hstored
      · have hle := hs e' hstored
        omega
      · exact hlost hstored
    intro honce
    have hlow := hkept.low
    obtain ⟨hcount, -⟩ := honce e' he' (by rw [processPage_low]; omega) (by omega)
    rw [List.count_eq_zero_of_not_mem hmissing] at hcount
    exact absurd hcount (by decide)
  · rw [hnone] at he
    cases he
  · rw [hnone] at he
    cases he
  · cases he

/-- If no batch splits a ledger, every event from the first ledger up to the cursor has been stored
and handled once, in every state; and a batch that does split one loses an event. -/
theorem exactly_once_of_reach
    (h : (indexing chain).Reach (fun s a => NoReindex a ∧ WholeLedgers chain s a) s) :
    s.ExactlyOnce chain ∧ ∀ a s', (indexing chain).step s a s' → ¬ WholeLedgers chain s a →
      ¬ s'.ExactlyOnce chain := by
  have hkept := kept_of_reach h
  constructor
  · refine exactlyOnce_of_sound hkept (sound_of_reach (Machine.Reach.mono_of_reach ?_ h))
    rintro s a hreach ⟨-, hwhole⟩
    have hbehind := behind_of_reach (fun _ _ hok => hok.1) hreach
    refine ⟨fun e he => .inl (hwhole e he), ?_⟩
    -- nothing that is taken is stored, so that there is no place to compare with
    rintro ⟨e, i⟩ hp r hr hre
    have he : e ∈ s.taken chain a := List.mem_of_getElem? (List.mem_zipIdx_iff_getElem?.mp hp)
    have hstored : e ∈ s.stored := List.mem_map.mpr ⟨r, hr, hre⟩
    exact absurd hstored (not_stored_of_taken hbehind he)
  · intro a s' hstep hsplit
    exact not_exactlyOnce_of_act hstep hkept (behind_of_reach (fun _ _ hok => hok.1) h) hsplit

end

/-! ## Short histories -/

/-- Two events of one transaction, and one of the next ledger. -/
def splitChain : Chain where
  events := [⟨0, 5, "aa"⟩, ⟨1, 5, "aa"⟩, ⟨2, 6, "bb"⟩]
  nodup := by decide
  sorted := by decide
  oneLedger := by decide

/-- Nothing is stored, and the chain has come to ledger 10. -/
def fresh : Indexer := ⟨10, 0, [], [], 0⟩

theorem initial_fresh : fresh.Initial := ⟨rfl, rfl, rfl⟩

/-- A crash after the first ledger does no harm. -/
theorem exactly_once_after_crash : ∃ s,
    (indexing splitChain).Reach (fun s a => NoReindex a ∧ WholeLedgers splitChain s a) s ∧
      (s.cursor = 6 ∧ s.stored = splitChain.events) ∧ s.ExactlyOnce splitChain := by
  have hrun : ∃ s,
      (indexing splitChain).Reach (fun s a => NoReindex a ∧ WholeLedgers splitChain s a) s ∧
        (s.cursor = 6 ∧ s.stored = splitChain.events) :=
    Machine.exists_reach_of_runAll [.batch 10 2, .batch 10 1] initial_fresh (by decide)
  obtain ⟨s, hs, hend⟩ := hrun
  exact ⟨s, hs, hend, (exactly_once_of_reach hs).1⟩

/-- One event more than a page holds, all of one transaction. -/
def longChain : Chain where
  events := (List.range 51).map fun i => ⟨i, 5, "aa"⟩
  nodup := by decide
  sorted := by decide
  oneLedger := by decide

/-- A crash between the two events of ledger 5 loses the second, and so does the limit of the page
with the last of 51 events. -/
theorem event_lost_in_split_ledger :
    (∃ s, (indexing splitChain).Reach (fun _ a => NoReindex a) s ∧
      s.cursor = 10 ∧ s.stored = [⟨0, 5, "aa"⟩, ⟨2, 6, "bb"⟩] ∧ ¬ s.ExactlyOnce splitChain) ∧
    ∃ s, (indexing longChain).Reach (fun _ a => NoReindex a) s ∧
      s.cursor = 10 ∧ s.stored.length = 50 ∧ ¬ s.ExactlyOnce longChain :=
  ⟨Machine.exists_reach_of_runAll [.batch 10 1, .batch 10 1, .batch 10 1] initial_fresh (by decide),
    Machine.exists_reach_of_runAll [.batch 10 50, .batch 10 1] initial_fresh (by decide +kernel)⟩

/-- The cursor is set back to where the first page started. -/
theorem reindexed_once_from_start : ∃ s,
    (indexing splitChain).Reach
      (fun s a => WholeOrStored splitChain s a ∧ SamePlaces splitChain s a) s ∧
      (s.cursor = 6 ∧ s.stored = splitChain.events) ∧ s.ExactlyOnce splitChain := by
  have hrun : ∃ s, (indexing splitChain).Reach
      (fun s a => WholeOrStored splitChain s a ∧ SamePlaces splitChain s a) s ∧
        (s.cursor = 6 ∧ s.stored = splitChain.events) :=
    Machine.exists_reach_of_runAll [.batch 10 3, .reindex 1, .batch 10 3] initial_fresh (by decide)
  obtain ⟨s, hs, hend⟩ := hrun
  exact ⟨s, hs, hend, (reindexed_once_of_reach hs).1⟩

/-- The cursor is set back to ledger 5: the event of ledger 6 now is the first of its page, and is
stored and handled again. -/
theorem event_handled_again : ∃ s, (indexing splitChain).Reach Machine.always s ∧
    s.cursor = 6 ∧ s.stored.count ⟨2, 6, "bb"⟩ = 2 ∧ s.handled.count ⟨2, 6, "bb"⟩ = 2 ∧
      ¬ s.ExactlyOnce splitChain := by
  have hrun : ∃ s, (indexing splitChain).Reach (fun _ _ => True) s ∧
    s.cursor = 6 ∧ s.stored.count ⟨2, 6, "bb"⟩ = 2 ∧ s.handled.count ⟨2, 6, "bb"⟩ = 2 ∧
      ¬ s.ExactlyOnce splitChain :=
    Machine.exists_reach_of_runAll [.batch 10 3, .reindex 6, .batch 10 3] initial_fresh (by decide)
  exact hrun

end NiffyInsure.Backend
