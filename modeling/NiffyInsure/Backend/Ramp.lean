import NiffyInsure.Lib.CheckThenAct

/-!
# Purchases of the fiat ramp

`recordStatus` (`ramp-premium.service.ts`) is called for every callback of the provider.  It looks
up the row of the purchase, writes the status of the callback into it, and emits `ramp.completed`
when the status is `COMPLETE` and the row that it has looked up had another one.  The look, the
write and the event are separate steps, and the write takes any status.

* `completed_once_of_reach`: a purchase is signalled once, and stays `COMPLETE`, as long as no
  status is written over `COMPLETE`, and no callback looks a purchase up while another one is about
  to complete it.
-/

namespace NiffyInsure.Backend.Ramp

open CheckThenAct

structure RampCompletedEvent where
  purchaseId : String
  receiverAddress : String
  cryptoAmount : String
  cryptoCurrency : String
  fiatValue : Rat
  fiatCurrency : String
  finalTxHash : Option String
  deriving DecidableEq

/-- What the provider reports of a purchase. -/
structure Purchase extends RampCompletedEvent where
  status : String
  deriving DecidableEq

structure RampTransaction where
  status : String
  receiverAddress : String
  cryptoAmount : String
  cryptoCurrency : String
  fiatValue : Rat
  fiatCurrency : String
  finalTxHash : Option String
  deriving DecidableEq

/-- `data` of `recordStatus`. -/
def Purchase.data (purchase : Purchase) : RampTransaction where
  status := purchase.status
  receiverAddress := purchase.receiverAddress
  cryptoAmount := purchase.cryptoAmount
  cryptoCurrency := purchase.cryptoCurrency
  fiatValue := purchase.fiatValue
  fiatCurrency := purchase.fiatCurrency
  finalTxHash := purchase.finalTxHash

structure RampInitiateRequest where
  fiatCurrency : String
  fiatValue : Rat
  cryptoCurrency : String
  receiverAddress : String

/-- The row that `initiate` creates. -/
def RampInitiateRequest.row (req : RampInitiateRequest) : RampTransaction where
  status := "PENDING"
  receiverAddress := req.receiverAddress
  cryptoAmount := "0"
  cryptoCurrency := req.cryptoCurrency
  fiatValue := req.fiatValue
  fiatCurrency := req.fiatCurrency
  finalTxHash := none

/-- The rows by their `purchaseId`, and the `ramp.completed` events. -/
structure State where
  rows : String → Option RampTransaction
  events : List RampCompletedEvent

/-- The row of the purchase is `COMPLETE`. -/
def State.Complete (s : State) (purchaseId : String) : Prop :=
  (s.rows purchaseId).map (·.status) = some "COMPLETE"

instance (s : State) (purchaseId : String) : Decidable (s.Complete purchaseId) :=
  inferInstanceAs (Decidable (_ = _))

/-- How far a call of `recordStatus` has come. -/
inductive Call where
  | findUnique (purchase : Purchase)
  | upsert (purchase : Purchase) (existing : Option RampTransaction)
  | emit (purchase : Purchase) (existing : Option RampTransaction)
  | returned (purchase : Purchase)
  | threw (purchase : Purchase)
  deriving DecidableEq

/-- What the provider reported in the call. -/
def Call.purchase : Call → Purchase
  | .findUnique purchase | .upsert purchase _ | .emit purchase _ | .returned purchase
  | .threw purchase => purchase

/-- What the database does. -/
inductive Reply where
  | ok
  | error
  deriving DecidableEq

/-- The call signals the completion of its purchase. -/
def Purchase.completes (purchase : Purchase) (existing : Option RampTransaction) : Bool :=
  purchase.status = "COMPLETE" && existing.map (·.status) ≠ some "COMPLETE"

/-- The next step of `recordStatus`. -/
def next (s : State) : Call → Reply → Option (State × Call)
  | .findUnique purchase, .ok => some (s, .upsert purchase (s.rows purchase.purchaseId))
  | .findUnique purchase, .error => some (s, .threw purchase)
  | .upsert purchase existing, .ok =>
    some ({ s with rows := Function.update s.rows purchase.purchaseId (some purchase.data) },
      .emit purchase existing)
  | .upsert purchase _, .error => some (s, .threw purchase)
  | .emit purchase existing, .ok =>
    if purchase.completes existing then
      some ({ s with events := s.events ++ [purchase.toRampCompletedEvent] }, .returned purchase)
    else some (s, .returned purchase)
  | _, _ => none

/-- The calls of `recordStatus`; the surroundings initiate purchases, whose ids are new. -/
def program : Concurrent.Program State Call Purchase Reply (String × RampInitiateRequest) where
  start s purchase := some (s, .findUnique purchase)
  next := next
  around s e :=
    if s.rows e.1 = none then
      some { s with rows := Function.update s.rows e.1 (some e.2.row) }
    else none

/-- No purchase was initiated. -/
def State.fresh : State := ⟨fun _ => none, []⟩

def machine : Machine (Concurrent.State State Call)
    (Concurrent.Label Purchase Reply (String × RampInitiateRequest)) :=
  program.machine (· = .fresh)

/-! ## The condition -/

/-- A purchase is closed when its row is `COMPLETE`; a callback has it in hand from when it has
found it not `COMPLETE` until it has signalled the completion. -/
def view : View State Call String where
  closed := State.Complete
  log s := s.events.map (·.purchaseId)
  inHand
    | .upsert purchase existing | .emit purchase existing =>
      if purchase.completes existing then some (purchase.purchaseId, false) else none
    | _ => none

/-- A callback that completes a purchase finds it `COMPLETE`, or no other one is about to signal it;
its commands do not fail; and no other status is written over `COMPLETE`. -/
def Undisturbed (s : Concurrent.State State Call) : Call → Reply → Prop
  | .findUnique purchase, .ok => purchase.status = "COMPLETE" →
    s.shared.Complete purchase.purchaseId ∨ view.Free s purchase.purchaseId
  | .upsert purchase _, .ok => s.shared.Complete purchase.purchaseId → purchase.status = "COMPLETE"
  | p, .error => p.purchase.status ≠ "COMPLETE"
  | _, .ok => True

instance (s : Concurrent.State State Call) (p : Call) (reply : Reply) :
    Decidable (Undisturbed s p reply) :=
  match p, reply with
  | .findUnique purchase, .ok => inferInstanceAs (Decidable (purchase.status = "COMPLETE" →
      s.shared.Complete purchase.purchaseId ∨ view.Free s purchase.purchaseId))
  | .upsert purchase _, .ok => inferInstanceAs
      (Decidable (s.shared.Complete purchase.purchaseId → purchase.status = "COMPLETE"))
  | .findUnique purchase, .error | .upsert purchase _, .error | .emit purchase _, .error
  | .returned purchase, .error | .threw purchase, .error =>
    inferInstanceAs (Decidable (purchase.status ≠ "COMPLETE"))
  | .emit _ _, .ok | .returned _, .ok | .threw _, .ok => inferInstanceAs (Decidable True)

/-- The call that takes the step is undisturbed. -/
def RampClear (s : Concurrent.State State Call) :
    Concurrent.Label Purchase Reply (String × RampInitiateRequest) → Prop
  | .next i reply => ∀ p ∈ s.calls[i]?, Undisturbed s p reply
  | _ => True

instance (s : Concurrent.State State Call)
    (l : Concurrent.Label Purchase Reply (String × RampInitiateRequest)) :
    Decidable (RampClear s l) :=
  match l with
  | .next i reply => inferInstanceAs (Decidable (∀ p ∈ s.calls[i]?, Undisturbed s p reply))
  | .start _ | .around _ => inferInstanceAs (Decidable True)

variable {s t : Concurrent.State State Call} {p : Call} {q : State × Call} {reply : Reply}
  {purchaseId : String}

/-! ## One step -/

theorem complete_update {shared : State} {k : String} {row : RampTransaction}
    (h : shared.Complete k → row.status = "COMPLETE") (hk : shared.Complete purchaseId) :
    State.Complete { shared with rows := Function.update shared.rows k (some row) } purchaseId := by
  show (Function.update shared.rows k (some row) purchaseId).map (·.status) = some "COMPLETE"
  by_cases hsame : purchaseId = k
  · rw [hsame, Function.update_self]
    exact congrArg some (h (hsame ▸ hk))
  · rw [Function.update_of_ne hsame]
    exact hk

theorem complete_next (hclear : Undisturbed s p reply) (h : next s.shared p reply = some q)
    (hk : s.shared.Complete purchaseId) : q.1.Complete purchaseId := by
  rw [next.eq_def] at h
  split at h
  · cases h
    exact hk
  · cases h
    exact hk
  · cases h
    exact complete_update hclear hk
  · cases h
    exact hk
  · split at h <;> cases h <;> exact hk
  · cases h

theorem complete_around {e : String × RampInitiateRequest} {shared shared' : State}
    (h : program.around shared e = some shared') (hk : shared.Complete purchaseId) :
    shared'.Complete purchaseId := by
  change (if _ then _ else _) = _ at h
  split at h
  · rename_i hnew
    cases h
    refine complete_update (fun hcomplete => ?_) hk
    rw [State.Complete, hnew] at hcomplete
    cases hcomplete
  · cases h

/-- What holds of a call: a purchase that it has found `COMPLETE`, or has completed, is so. -/
def CallSound (s : State) : Call → Prop
  | .findUnique _ => True
  | .upsert purchase existing => purchase.status = "COMPLETE" →
    purchase.completes existing = false → s.Complete purchase.purchaseId
  | .emit purchase _ | .returned purchase => purchase.status = "COMPLETE" →
    s.Complete purchase.purchaseId
  | .threw purchase => purchase.status ≠ "COMPLETE"

theorem CallSound.mono {shared shared' : State} (h : CallSound shared p)
    (hmono : ∀ k, shared.Complete k → shared'.Complete k) : CallSound shared' p := by
  cases p with
  | findUnique purchase => trivial
  | upsert purchase existing => exact fun hstatus hfound => hmono _ (h hstatus hfound)
  | emit purchase existing => exact fun hstatus => hmono _ (h hstatus)
  | returned purchase => exact fun hstatus => hmono _ (h hstatus)
  | threw purchase => exact h

/-- A callback that reports `COMPLETE` signals it, unless it has found the purchase `COMPLETE`. -/
theorem completes_eq_false {purchase : Purchase} {existing : Option RampTransaction}
    (hstatus : purchase.status = "COMPLETE") (h : purchase.completes existing = false) :
    existing.map (·.status) = some "COMPLETE" := by
  rw [Purchase.completes, decide_eq_true hstatus, Bool.true_and] at h
  exact of_not_not (of_decide_eq_false h)

theorem complete_data {shared : State} {purchase : Purchase}
    (hstatus : purchase.status = "COMPLETE") :
    State.Complete
      { shared with rows := Function.update shared.rows purchase.purchaseId (some purchase.data) }
      purchase.purchaseId := by
  show (Function.update shared.rows _ _ _).map (·.status) = some "COMPLETE"
  rw [Function.update_self]
  exact congrArg some hstatus

theorem callSound_next (hclear : Undisturbed s p reply) (hp : CallSound s.shared p)
    (h : next s.shared p reply = some q) : CallSound q.1 q.2 := by
  rw [next.eq_def] at h
  split at h
  · cases h
    exact fun hstatus hfound => completes_eq_false hstatus hfound
  · cases h
    exact hclear
  · cases h
    exact complete_data
  · cases h
    exact hclear
  · split at h <;> cases h <;> exact hp
  · cases h

/-- **What a step of `recordStatus` does** with a purchase in hand. -/
theorem move_next (hclear : Undisturbed s p reply) (hp : CallSound s.shared p)
    (h : next s.shared p reply = some q) : view.Move s p q := by
  rw [next.eq_def] at h
  split at h
  · -- the look
    rename_i purchase
    cases h
    cases hcompletes : purchase.completes (s.shared.rows purchase.purchaseId) with
    | false => exact .stay rfl (if_neg (by rw [hcompletes]; exact Bool.false_ne_true))
    | true =>
      obtain ⟨hstatus, hopen⟩ := Bool.and_eq_true_iff.mp hcompletes
      have hopen : ¬ s.shared.Complete purchase.purchaseId := of_decide_eq_true hopen
      exact .take purchase.purchaseId rfl rfl (if_pos hcompletes) hopen
        ((hclear (of_decide_eq_true hstatus)).resolve_left hopen)
  · cases h
    exact .stay rfl rfl
  · cases h
    exact .stay rfl rfl
  · -- the write fails: the callback had no purchase to complete
    rename_i purchase existing
    cases h
    refine .stay rfl (if_neg fun hcompletes => ?_).symm
    exact hclear (of_decide_eq_true (Bool.and_eq_true_iff.mp hcompletes).1)
  · -- the event
    rename_i purchase existing
    split at h
    · rename_i hcompletes
      cases h
      have hstatus := of_decide_eq_true (Bool.and_eq_true_iff.mp hcompletes).1
      refine .actAndClose purchase.purchaseId ?_ (if_pos hcompletes) rfl (hp hstatus)
      exact List.map_append
    · rename_i hcompletes
      cases h
      exact .stay rfl (if_neg hcompletes).symm
  · cases h

theorem purchase_next (h : next s.shared p reply = some q) : q.2.purchase = p.purchase := by
  rw [next.eq_def] at h
  split at h
  case h_5 => split at h <;> cases h <;> rfl
  case h_6 => cases h
  all_goals
    cases h
    rfl

/-- A step signals the purchase of its own call, which reports it as `COMPLETE`, or nothing. -/
theorem events_next (h : next s.shared p reply = some q) : q.1.events = s.shared.events ∨
    p.purchase.status = "COMPLETE" ∧
      q.1.events = s.shared.events ++ [p.purchase.toRampCompletedEvent] := by
  rw [next.eq_def] at h
  split at h
  case h_5 =>
    split at h
    · rename_i hcompletes
      cases h
      exact .inr ⟨of_decide_eq_true (Bool.and_eq_true_iff.mp hcompletes).1, rfl⟩
    · cases h
      exact .inl rfl
  case h_6 => cases h
  all_goals
    cases h
    exact .inl rfl

theorem hand_next {acted : Bool} (hclear : Undisturbed s p reply)
    (h : next s.shared p reply = some q) (hin : view.inHand p = some (purchaseId, acted)) :
    purchaseId ∈ view.log q.1 ∨ view.inHand q.2 = some (purchaseId, acted) := by
  rw [next.eq_def] at h
  split at h
  case h_3 purchase existing =>
    cases h
    exact .inr hin
  case h_4 purchase existing =>
    change (if _ then _ else _) = _ at hin
    split at hin
    · rename_i hcompletes
      exact absurd (of_decide_eq_true (Bool.and_eq_true_iff.mp hcompletes).1) hclear
    · cases hin
  case h_5 purchase existing =>
    change (if _ then _ else _) = _ at hin
    split at hin
    · rename_i hcompletes
      rw [if_pos hcompletes] at h
      cases h
      cases hin
      left
      show purchase.purchaseId ∈ (_ ++ _ : List RampCompletedEvent).map (·.purchaseId)
      rw [List.map_append]
      exact List.mem_append_right _ (List.mem_singleton_self _)
    · cases hin
  case h_6 => cases h
  all_goals cases hin

theorem completed_next (h : next s.shared p reply = some q) (hp : CallSound s.shared p)
    (hk : q.1.Complete purchaseId) :
    s.shared.Complete purchaseId ∨ ∃ acted, view.inHand q.2 = some (purchaseId, acted) := by
  rw [next.eq_def] at h
  split at h
  case h_3 purchase existing =>
    cases h
    change (Function.update s.shared.rows purchase.purchaseId (some purchase.data) purchaseId).map
      (·.status) = some "COMPLETE" at hk
    by_cases hsame : purchaseId = purchase.purchaseId
    · rw [hsame, Function.update_self] at hk
      have hstatus : purchase.status = "COMPLETE" := Option.some.inj hk
      rw [hsame]
      cases hcompletes : purchase.completes existing with
      | false => exact .inl (hp hstatus hcompletes)
      | true => exact .inr ⟨false, if_pos hcompletes⟩
    · rw [Function.update_of_ne hsame] at hk
      exact .inl hk
  case h_5 => split at h <;> cases h <;> exact .inl hk
  case h_6 => cases h
  all_goals
    cases h
    exact .inl hk

/-! ## The run -/

theorem complete_of_steps (h : machine.Steps RampClear s t) (hs : s.shared.Complete purchaseId) :
    t.shared.Complete purchaseId := by
  refine h.invariant (I := fun s => s.shared.Complete purchaseId) ?_ hs
  intro s l t hl hstep hs
  rcases Concurrent.step_cases hstep with ⟨purchase, q, rfl, hq, rfl⟩ |
    ⟨i, reply, p, q, rfl, hp, hq, rfl⟩ | ⟨e, shared, rfl, he, rfl⟩
  · cases hq
    exact hs
  · exact complete_next (hl p hp) hq hs
  · exact complete_around he hs

theorem callSound_of_reach (h : machine.Reach RampClear s) :
    ∀ p ∈ s.calls, CallSound s.shared p := by
  refine (Concurrent.Reach.sharedInvariant (I := fun _ => True) (J := CallSound)
    (fun _ _ => trivial) ?_ ?_ ?_ h).2
  · intro s purchase q _ _ hq
    cases hq
    exact ⟨trivial, trivial, fun _ _ hp => hp⟩
  · intro s i reply p q hl hcall _ hp hq
    have hclear := hl p hcall
    exact ⟨trivial, callSound_next hclear hp hq,
      fun p' _ hp' => hp'.mono fun _ hk => complete_next hclear hq hk⟩
  · intro s e shared _ _ he
    exact ⟨trivial, fun p' _ hp' => hp'.mono fun _ hk => complete_around he hk⟩

theorem once_of_reach (h : machine.Reach RampClear s) : view.Once s := by
  refine Reach.once (v := view) ?_ ?_ ?_ ?_ h
  · rintro _ rfl
    rfl
  · intro s purchase q _ hq
    cases hq
    exact ⟨rfl, rfl, fun _ hk => hk⟩
  · intro s i reply p q hreach hl hcall hq
    have hclear := hl p hcall
    have hp := callSound_of_reach hreach p (List.mem_of_getElem? hcall)
    exact ⟨move_next hclear hp hq, fun _ hk => complete_next hclear hq hk⟩
  · intro s e shared _ he
    refine ⟨?_, fun _ hk => complete_around he hk⟩
    change (if _ then _ else _) = _ at he
    split at he <;> cases he
    rfl

theorem reported_of_reach (h : machine.Reach RampClear s) : ∀ e ∈ s.shared.events,
    ∃ p ∈ s.calls, p.purchase.status = "COMPLETE" ∧ p.purchase.toRampCompletedEvent = e := by
  refine h.invariant (I := fun s => ∀ e ∈ s.shared.events, ∃ p ∈ s.calls,
    p.purchase.status = "COMPLETE" ∧ p.purchase.toRampCompletedEvent = e) ?_ ?_
  · rintro s ⟨hs, -⟩ e he
    rw [hs] at he
    cases he
  intro s l t hl hstep ih
  rcases Concurrent.step_cases hstep with ⟨purchase, q, rfl, hq, rfl⟩ |
    ⟨i, reply, p, q, rfl, hp, hq, rfl⟩ | ⟨e, shared, rfl, he, rfl⟩
  · cases hq
    intro e he
    obtain ⟨p, hp, hreported⟩ := ih e he
    exact ⟨p, List.mem_append_left _ hp, hreported⟩
  · -- the call has gone on, and reports the same
    have hkept : ∀ p' ∈ s.calls, ∃ p'' ∈ s.calls.set i q.2, p''.purchase = p'.purchase := by
      intro p' hp'
      obtain ⟨j, hj⟩ := List.mem_iff_getElem?.mp hp'
      have hlt : i < s.calls.length := (List.getElem?_eq_some_iff.mp hp).1
      by_cases hij : i = j
      · rw [← hij, hp] at hj
        cases hj
        exact ⟨q.2, List.mem_of_getElem? (List.getElem?_set_self hlt), purchase_next hq⟩
      · exact ⟨p', List.mem_of_getElem? ((List.getElem?_set_ne hij).trans hj), rfl⟩
    intro e he
    obtain ⟨p', hp', hreported⟩ : ∃ p' ∈ s.calls, p'.purchase.status = "COMPLETE" ∧
        p'.purchase.toRampCompletedEvent = e := by
      rcases events_next hq with hsame | ⟨hstatus, hmore⟩
      · exact ih e (hsame ▸ he)
      · change e ∈ q.1.events at he
        rw [hmore] at he
        rcases List.mem_append.mp he with he | he
        · exact ih e he
        · exact ⟨p, List.mem_of_getElem? hp, hstatus, (List.mem_singleton.mp he).symm⟩
    obtain ⟨p'', hp'', hsame⟩ := hkept p' hp'
    exact ⟨p'', hp'', hsame ▸ hreported⟩
  · intro e' he'
    refine ih e' ?_
    change (if _ then _ else _) = _ at he
    split at he <;> cases he
    exact he'

theorem accounted_of_reach (h : machine.Reach RampClear s) : view.Accounted s := by
  refine h.invariant_with (J := machine.Reach RampClear) (fun _ hs => hs) ?_ ?_
  · rintro s ⟨hs, -⟩ k hk
    rw [hs] at hk
    cases hk
  intro s l t hreach hl hstep ih
  rcases Concurrent.step_cases hstep with ⟨purchase, q, rfl, hq, rfl⟩ |
    ⟨i, reply, p, q, rfl, hcall, hq, rfl⟩ | ⟨e, shared, rfl, he, rfl⟩
  · cases hq
    intro k hk
    rw [View.hand_add (v := view) (s := s) (q := (s.shared, Call.findUnique purchase)) rfl]
    exact ih k hk
  · have hclear := hl p hcall
    have hp := callSound_of_reach hreach p (List.mem_of_getElem? hcall)
    refine ih.put hcall ?_ (fun _ _ => hand_next hclear hq) fun _ => completed_next hq hp
    intro k hk
    show k ∈ q.1.events.map (·.purchaseId)
    rcases events_next hq with hsame | ⟨-, hmore⟩
    · rw [hsame]
      exact hk
    · rw [hmore, List.map_append]
      exact List.mem_append_left _ hk
  · intro k hk
    change (if _ then _ else _) = _ at he
    split at he
    · rename_i hnew
      cases he
      refine ih k ?_
      by_cases hsame : k = e.1
      · change (Function.update s.shared.rows e.1 (some e.2.row) k).map (·.status) = _ at hk
        rw [hsame, Function.update_self] at hk
        exact absurd (Option.some.inj hk) (show ¬ "PENDING" = "COMPLETE" by decide)
      · change (Function.update s.shared.rows e.1 (some e.2.row) k).map (·.status) = _ at hk
        rw [Function.update_of_ne hsame] at hk
        exact hk
    · cases he

/-- No callback is under way. -/
def Settled (s : Concurrent.State State Call) : Prop :=
  ∀ p ∈ s.calls, p = .returned p.purchase ∨ p = .threw p.purchase

/-- **A purchase is signalled once.**  If no status is written over `COMPLETE`, and no callback
looks a purchase up while another one is about to signal it, then no purchase is signalled twice,
only purchases that a callback reported as `COMPLETE` are signalled, when no callback is under way
all of these are, and what is `COMPLETE` stays so. -/
theorem completed_once_of_reach (h : machine.Reach RampClear s) :
    (∀ k, (s.shared.events.map (·.purchaseId)).count k ≤ 1) ∧
    (∀ e ∈ s.shared.events,
      ∃ p ∈ s.calls, p.purchase.status = "COMPLETE" ∧ p.purchase.toRampCompletedEvent = e) ∧
    (Settled s → ∀ p ∈ s.calls, p.purchase.status = "COMPLETE" →
      (s.shared.events.map (·.purchaseId)).count p.purchase.purchaseId = 1) ∧
    ∀ t, machine.Steps RampClear s t → ∀ k, s.shared.Complete k → t.shared.Complete k := by
  have honce : (s.shared.events.map (·.purchaseId)).Nodup := (once_of_reach h).once
  refine ⟨List.nodup_iff_count_le_one.mp honce, reported_of_reach h, ?_,
    fun t hrun k hk => complete_of_steps hrun hk⟩
  intro hsettled p hp hstatus
  -- the callback has returned, so its purchase is complete
  have hcomplete : s.shared.Complete p.purchase.purchaseId := by
    have hsound := callSound_of_reach h p hp
    rcases hsettled p hp with heq | heq
    · rw [heq] at hsound
      exact hsound hstatus
    · rw [heq] at hsound
      exact absurd hstatus hsound
  refine List.count_eq_one_of_mem honce ?_
  rcases accounted_of_reach h _ hcomplete with hlogged | ⟨i, acted, hi⟩
  · exact hlogged
  · obtain ⟨p', hp', hin⟩ := Option.bind_eq_some_iff.mp hi
    rcases hsettled p' (List.mem_of_getElem? hp') with heq | heq <;> rw [heq] at hin <;> cases hin

/-- The provider's report of a purchase. -/
def report (status : String) : Purchase :=
  ⟨⟨"7", "G", "100", "XLM", 25, "EUR", none⟩, status⟩

/-- The call `i` takes its next three steps. -/
def run (i : Nat) : List (Concurrent.Label Purchase Reply (String × RampInitiateRequest)) :=
  List.replicate 3 (.next i .ok)

theorem completed_once_duplicated :
    ∃ s, machine.Reach RampClear s ∧ s.calls = [.returned (report "COMPLETE"),
        .returned (report "COMPLETE")] ∧
      (s.shared.events.map (·.purchaseId)).count "7" = 1 := by
  obtain ⟨s, h, hcalls⟩ : ∃ s, machine.Reach RampClear s ∧
      s.calls = [.returned (report "COMPLETE"), .returned (report "COMPLETE")] :=
    Machine.exists_reach_of_runAll
      (.around ("7", ⟨"EUR", 25, "XLM", "G"⟩) :: .start (report "COMPLETE") :: run 0 ++
        .start (report "COMPLETE") :: run 1)
      (s := ⟨.fresh, []⟩) ⟨rfl, rfl⟩ (by decide)
  refine ⟨s, h, hcalls, (completed_once_of_reach h).2.2.1 ?_ (.returned (report "COMPLETE")) ?_ rfl⟩
  · intro p hp
    rw [hcalls] at hp
    rcases List.mem_cons.mp hp with rfl | hp
    · exact .inl rfl
    · exact .inl (by rw [List.mem_singleton.mp hp]; rfl)
  · rw [hcalls]
    exact List.mem_cons_self ..

/-- Two callbacks look the purchase up before either of them has written; and a late `FAILED` is
written over `COMPLETE`, so that the next `COMPLETE` is signalled again. -/
theorem completed_twice :
    (∃ s, machine.Reach Machine.always s ∧ (s.shared.events.map (·.purchaseId)).count "7" = 2) ∧
    (∃ s t, machine.Reach Machine.always s ∧ machine.Steps Machine.always s t ∧
      s.shared.Complete "7" ∧ ¬ t.shared.Complete "7") ∧
    ∃ s, machine.Reach Machine.always s ∧ s.calls = [.returned (report "COMPLETE"),
        .returned (report "FAILED"), .returned (report "COMPLETE")] ∧
      (s.shared.events.map (·.purchaseId)).count "7" = 2 := by
  refine ⟨?_, ?_, ?_⟩
  · exact Machine.exists_reach_of_runAll
      [.start (report "COMPLETE"), .start (report "COMPLETE"), .next 0 .ok, .next 1 .ok,
        .next 0 .ok, .next 0 .ok, .next 1 .ok, .next 1 .ok]
      (s := ⟨.fresh, []⟩) ⟨rfl, rfl⟩ (by decide)
  · exact Machine.exists_steps_of_runAll (.start (report "COMPLETE") :: run 0)
      (.start (report "FAILED") :: run 1) (s := ⟨.fresh, []⟩) ⟨rfl, rfl⟩ (by decide)
  · exact Machine.exists_reach_of_runAll
      (.start (report "COMPLETE") :: run 0 ++ .start (report "FAILED") :: run 1 ++
        .start (report "COMPLETE") :: run 2)
      (s := ⟨.fresh, []⟩) ⟨rfl, rfl⟩ (by decide)

end NiffyInsure.Backend.Ramp
