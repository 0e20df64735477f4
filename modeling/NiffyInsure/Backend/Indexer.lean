import NiffyInsure.Lib.Machine
import Mathlib.Data.List.Nodup

/-!
# The indexer's cursor and its raw events

`processNextBatchForNetwork` (`indexer.service.ts`) fetches at most 50 events from the ledger after
the cursor on, and gives each of them a transaction of its own: the event is stored under its
transaction hash and its place in the fetched page, given to its handler, and the cursor goes up to
its ledger.  An event whose hash and place are stored already only moves the cursor.  The process
may crash between two of these transactions.  `enqueueReindex` (`admin.service.ts`) sets the cursor
back.

The model keeps, beside the state of the code, the list of the events that were given to their
handlers and the lowest ledger that the cursor was ever set to.
-/

namespace NiffyInsure.Backend

/-! ## The chain -/

/-- An event of the contract.  The indexer does not look at its number in the history. -/
structure ChainEvent where
  id : Nat
  ledger : Nat
  txHash : String
  deriving DecidableEq

/-- The history of the contract's events: they are in the order of their ledgers, and a transaction
is part of one ledger. -/
structure Chain where
  events : List ChainEvent
  nodup : events.Nodup
  sorted : events.Pairwise fun e e' => e.ledger ≤ e'.ledger
  oneLedger : ∀ e ∈ events, ∀ e' ∈ events, e.txHash = e'.txHash → e.ledger = e'.ledger

/-- The events from `start` up to the ledger that was closed last. -/
def Chain.between (chain : Chain) (start head : Nat) : List ChainEvent :=
  chain.events.filter fun e => start ≤ e.ledger ∧ e.ledger ≤ head

/-- `getEvents` of the RPC. -/
def Chain.getEvents (chain : Chain) (head start limit : Nat) : List ChainEvent :=
  (chain.between start head).take limit

/-! ## The indexer -/

/-- A row of the raw events: the key, and what is copied from the event. -/
structure RawEvent where
  txHash : String
  eventIndex : Nat
  event : ChainEvent
  deriving DecidableEq

/-- The last closed ledger of the chain, the cursor and the raw events of the indexer, the events
that were handled, and the lowest ledger that the cursor was set to. -/
structure Indexer where
  head : Nat
  cursor : Nat
  rawEvents : List RawEvent
  handled : List ChainEvent
  low : Nat

def BATCH_SIZE : Nat := 50

namespace Indexer

variable (s : Indexer)

/-- `advanceCursorInTx`. -/
def advanceCursor (ledger : Nat) : Indexer := { s with cursor := max s.cursor ledger }

/-- There is a row for this hash and place. -/
def hasKey (txHash : String) (index : Nat) : Bool :=
  s.rawEvents.any fun r => r.txHash = txHash ∧ r.eventIndex = index

/-- `processEventForNetwork`, with the handler as an entry in the list. -/
def processEvent (e : ChainEvent) (index : Nat) : Indexer :=
  if s.hasKey e.txHash index then s.advanceCursor e.ledger
  else advanceCursor { s with
    rawEvents := s.rawEvents ++ [⟨e.txHash, index, e⟩]
    handled := s.handled ++ [e] } e.ledger

/-- The loop over a page, from the given place on. -/
def processPage (s : Indexer) : Nat → List ChainEvent → Indexer
  | _, [] => s
  | i, e :: rest => (s.processEvent e i).processPage (i + 1) rest

/-- The page that a call fetches. -/
def page (chain : Chain) : List ChainEvent :=
  chain.getEvents s.head (s.cursor + 1) BATCH_SIZE

/-- `processNextBatchForNetwork`, of which `done` transactions are committed before it ends or
crashes.  The RPC has answered `latest` for the last ledger. -/
def processNextBatch (chain : Chain) (latest done : Nat) : Indexer :=
  if latest ≤ s.cursor then s
  else if s.page chain = [] then
    if done = 0 then s else s.advanceCursor (min (s.cursor + 1 + 100) latest)
  else s.processPage 0 ((s.page chain).take done)

/-- `enqueueReindex`. -/
def enqueueReindex (fromLedger : Nat) : Indexer :=
  { s with cursor := fromLedger - 1, low := min s.low (fromLedger - 1) }

/-- What happens to chain and indexer: the chain closes ledgers, a batch runs, or the cursor is
set back. -/
inductive Action where
  | closeLedgers (head : Nat)
  | batch (latest done : Nat)
  | reindex (fromLedger : Nat)
  deriving DecidableEq

def act (chain : Chain) : Action → Option Indexer
  | .closeLedgers head => if s.head ≤ head then some { s with head } else none
  | .batch latest done => if latest ≤ s.head then some (s.processNextBatch chain latest done)
      else none
  | .reindex fromLedger => if fromLedger - 1 ≤ s.cursor then some (s.enqueueReindex fromLedger)
      else none

/-- Nothing is stored, whatever the cursor. -/
def Initial : Prop := s.rawEvents = [] ∧ s.handled = [] ∧ s.low = s.cursor

/-- The events of the rows. -/
def stored : List ChainEvent := s.rawEvents.map RawEvent.event

end Indexer

/-- The indexer beside a chain. -/
def indexing (chain : Chain) : Machine Indexer Indexer.Action :=
  Machine.ofAct (fun s a => s.act chain a) Indexer.Initial

/-! ## What a page does -/

section

variable {chain : Chain} {s : Indexer}

theorem mem_between {start head : Nat} {e : ChainEvent} :
    e ∈ chain.between start head ↔ e ∈ chain.events ∧ start ≤ e.ledger ∧ e.ledger ≤ head := by
  simp [Chain.between]

/-- What is taken from the front of the history goes up to some ledger: an event of an earlier
ledger is taken as well. -/
theorem mem_take_between {start head n : Nat} {e e' : ChainEvent}
    (he : e ∈ (chain.between start head).take n) (he' : e' ∈ chain.between start head)
    (hlt : e'.ledger < e.ledger) : e' ∈ (chain.between start head).take n := by
  have hsorted : (chain.between start head).Pairwise fun e e' => e.ledger ≤ e'.ledger :=
    chain.sorted.filter _
  rw [← List.take_append_drop n (chain.between start head)] at he' hsorted
  rcases List.mem_append.mp he' with htake | hdrop
  · exact htake
  · have hle := (List.pairwise_append.mp hsorted).2.2 e he e' hdrop
    omega

theorem nodup_take_between {start head n : Nat} : ((chain.between start head).take n).Nodup :=
  (chain.nodup.filter _).sublist (List.take_sublist _ _)

@[simp] theorem advanceCursor_rawEvents (ledger : Nat) :
    (s.advanceCursor ledger).rawEvents = s.rawEvents := rfl

@[simp] theorem advanceCursor_handled (ledger : Nat) :
    (s.advanceCursor ledger).handled = s.handled := rfl

theorem processEvent_of_key {e : ChainEvent} {i : Nat} (h : s.hasKey e.txHash i = true) :
    s.processEvent e i = s.advanceCursor e.ledger := if_pos h

theorem processEvent_of_not_key {e : ChainEvent} {i : Nat} (h : ¬ s.hasKey e.txHash i = true) :
    s.processEvent e i = Indexer.advanceCursor { s with
      rawEvents := s.rawEvents ++ [⟨e.txHash, i, e⟩]
      handled := s.handled ++ [e] } e.ledger := if_neg h

@[simp] theorem processEvent_cursor (e : ChainEvent) (i : Nat) :
    (s.processEvent e i).cursor = max s.cursor e.ledger := by
  unfold Indexer.processEvent
  split
  · rfl
  · rfl

@[simp] theorem processEvent_low (e : ChainEvent) (i : Nat) : (s.processEvent e i).low = s.low := by
  unfold Indexer.processEvent
  split
  · rfl
  · rfl

theorem stored_processEvent {e : ChainEvent} {i : Nat} (h : ¬ s.hasKey e.txHash i = true) :
    (s.processEvent e i).stored = s.stored ++ [e] := by
  rw [processEvent_of_not_key h]
  show (s.rawEvents ++ [_]).map RawEvent.event = _
  rw [List.map_append]
  rfl

/-- A row does not answer for another place. -/
theorem hasKey_processEvent {e : ChainEvent} {i j : Nat} {txHash : String} (hij : i ≠ j) :
    (s.processEvent e i).hasKey txHash j = s.hasKey txHash j := by
  by_cases h : s.hasKey e.txHash i = true
  · rw [processEvent_of_key h]
    rfl
  · rw [processEvent_of_not_key h]
    show (s.rawEvents ++ [_]).any _ = _
    rw [List.any_append]
    simp [Indexer.hasKey, hij]

/-- A page adds rows for some of its events, and gives these to their handlers. -/
theorem processPage_rows (l : List ChainEvent) (i : Nat) :
    ∃ new, (s.processPage i l).rawEvents = s.rawEvents ++ new ∧
      (s.processPage i l).handled = s.handled ++ new.map RawEvent.event ∧
      ∀ r ∈ new, r.event ∈ l ∧ r.txHash = r.event.txHash := by
  induction l generalizing s i with
  | nil => exact ⟨[], by simp [Indexer.processPage]⟩
  | cons e l ih =>
    show ∃ new, ((s.processEvent e i).processPage (i + 1) l).rawEvents = _ ∧
      ((s.processEvent e i).processPage (i + 1) l).handled = _ ∧ _
    obtain ⟨new, hrows, hhandled, hnew⟩ := ih (s := s.processEvent e i) (i + 1)
    by_cases hkey : s.hasKey e.txHash i = true
    · rw [processEvent_of_key hkey] at hrows hhandled
      refine ⟨new, ?_, ?_, fun r hr => ⟨List.mem_cons_of_mem e (hnew r hr).1, (hnew r hr).2⟩⟩
      · rw [processEvent_of_key hkey, hrows, advanceCursor_rawEvents]
      · rw [processEvent_of_key hkey, hhandled, advanceCursor_handled]
    · rw [processEvent_of_not_key hkey] at hrows hhandled
      refine ⟨⟨e.txHash, i, e⟩ :: new, ?_, ?_, ?_⟩
      · rw [processEvent_of_not_key hkey, hrows, advanceCursor_rawEvents, List.append_assoc]
        rfl
      · rw [processEvent_of_not_key hkey, hhandled, advanceCursor_handled, List.append_assoc]
        rfl
      · intro r hr
        rcases List.mem_cons.mp hr with rfl | hr
        · exact ⟨List.mem_cons_self, rfl⟩
        · exact ⟨List.mem_cons_of_mem e (hnew r hr).1, (hnew r hr).2⟩

/-- The unique key of the rows. -/
def RawEvent.key (r : RawEvent) : String × Nat := (r.txHash, r.eventIndex)

theorem nodup_keys_processEvent (e : ChainEvent) (i : Nat)
    (h : (s.rawEvents.map RawEvent.key).Nodup) :
    ((s.processEvent e i).rawEvents.map RawEvent.key).Nodup := by
  by_cases hkey : s.hasKey e.txHash i = true
  · rw [processEvent_of_key hkey]
    exact h
  · rw [processEvent_of_not_key hkey, advanceCursor_rawEvents, List.map_append, List.nodup_append]
    refine ⟨h, by simp, ?_⟩
    intro k hk k' hk' heq
    obtain ⟨r, hr, rfl⟩ := List.mem_map.mp hk
    rw [List.map_singleton, List.mem_singleton] at hk'
    refine hkey (List.any_eq_true.mpr ⟨r, hr, ?_⟩)
    rw [decide_eq_true_eq]
    exact Prod.mk.inj (heq.trans hk')

theorem nodup_keys_processPage (l : List ChainEvent) (i : Nat)
    (h : (s.rawEvents.map RawEvent.key).Nodup) :
    ((s.processPage i l).rawEvents.map RawEvent.key).Nodup := by
  induction l generalizing s i with
  | nil => exact h
  | cons e l ih => exact ih (i + 1) (nodup_keys_processEvent e i h)

@[simp] theorem processPage_low (l : List ChainEvent) (i : Nat) :
    (s.processPage i l).low = s.low := by
  induction l generalizing s i with
  | nil => rfl
  | cons e l ih =>
    show ((s.processEvent e i).processPage (i + 1) l).low = s.low
    rw [ih, processEvent_low]

/-- The cursor ends at the highest ledger of the page, or stays. -/
theorem processPage_cursor (l : List ChainEvent) (i : Nat) :
    s.cursor ≤ (s.processPage i l).cursor ∧ (∀ e ∈ l, e.ledger ≤ (s.processPage i l).cursor) ∧
      ((s.processPage i l).cursor = s.cursor ∨ ∃ e ∈ l, (s.processPage i l).cursor = e.ledger) := by
  induction l generalizing s i with
  | nil => exact ⟨Nat.le_refl _, by simp, .inl rfl⟩
  | cons e l ih =>
    obtain ⟨hle, hall, hlast⟩ := ih (s := s.processEvent e i) (i + 1)
    rw [processEvent_cursor] at hle hlast
    show _ ≤ ((s.processEvent e i).processPage (i + 1) l).cursor ∧ _ ∧ _
    refine ⟨by omega, ?_, ?_⟩
    · intro e' he'
      rcases List.mem_cons.mp he' with rfl | he'
      · show _ ≤ ((s.processEvent _ i).processPage (i + 1) l).cursor
        omega
      · exact hall e' he'
    · rcases hlast with hlast | ⟨e', he', hlast⟩
      · rcases Nat.le_total s.cursor e.ledger with hmax | hmax
        · exact .inr ⟨e, List.mem_cons_self, hlast.trans (Nat.max_eq_right hmax)⟩
        · exact .inl (hlast.trans (Nat.max_eq_left hmax))
      · exact .inr ⟨e', List.mem_cons_of_mem e he', hlast⟩

/-- Every event of the page has a key in the table exactly when it is stored. -/
def Indexer.Recognises (s : Indexer) (i : Nat) (l : List ChainEvent) : Prop :=
  ∀ j e, l[j]? = some e → (s.hasKey e.txHash (i + j) = true ↔ e ∈ s.stored)

/-- If the keys are right, the new events of the page are stored, each once. -/
theorem stored_processPage {l : List ChainEvent} {i : Nat} (hnd : l.Nodup) (h : s.Recognises i l) :
    (s.processPage i l).stored = s.stored ++ l.filter (· ∉ s.stored) := by
  induction l generalizing s i with
  | nil => simp [Indexer.processPage]
  | cons e l ih =>
    rw [List.nodup_cons] at hnd
    have hhead : s.hasKey e.txHash i = true ↔ e ∈ s.stored := h 0 e rfl
    have htail : ∀ j e', l[j]? = some e' →
        (s.hasKey e'.txHash (i + 1 + j) = true ↔ e' ∈ s.stored) := by
      intro j e' hj
      have hnext := h (j + 1) e' hj
      rwa [show i + (j + 1) = i + 1 + j by omega] at hnext
    show ((s.processEvent e i).processPage (i + 1) l).stored = _
    by_cases hstored : e ∈ s.stored
    · rw [processEvent_of_key (hhead.mpr hstored), ih (s := s.advanceCursor e.ledger) hnd.2 htail]
      rw [List.filter_cons_of_neg (by simpa using hstored)]
      rfl
    · have hkey : ¬ s.hasKey e.txHash i = true := fun hk => hstored (hhead.mp hk)
      have hadd := stored_processEvent hkey
      have hothers : ∀ e' ∈ l, (e' ∈ (s.processEvent e i).stored ↔ e' ∈ s.stored) := by
        intro e' he'
        have hne : e' ≠ e := fun heq => hnd.1 (heq ▸ he')
        rw [hadd, List.mem_append, List.mem_singleton]
        exact or_iff_left hne
      have hrest : (s.processEvent e i).Recognises (i + 1) l := by
        intro j e' hj
        rw [hasKey_processEvent (by omega), hothers e' (List.mem_of_getElem? hj)]
        exact htail j e' hj
      have hfilter : l.filter (· ∉ (s.processEvent e i).stored) = l.filter (· ∉ s.stored) :=
        List.filter_congr fun e' he' => by simp only [hothers e' he']
      rw [ih hnd.2 hrest, hfilter, hadd, List.filter_cons_of_pos (by simpa using hstored)]
      rw [List.append_assoc]
      rfl

end

end NiffyInsure.Backend
