import NiffyInsure.Lib.ClassIndex
import NiffyInsure.Lib.Concurrent
import NiffyInsure.Backend.EventStream

/-!
# The registry of the event stream

The connections are kept in two maps: by their ids, and for every user the set of his.  The handler
of a request registers its connection at once, but listens for the close of the request only after
it has subscribed and replayed the buffer.

* `Consistent`: both maps have the same connections, and no user has more than five.
* `registry_of_reach`: that is always so.  When all handlers have returned and all requests are
  closed, both maps are empty, as long as no request is closed while its handler is not yet
  listening, and no handler throws.
-/

namespace NiffyInsure.Backend.StreamRegistry

open EventStream (MAX_CONNECTIONS_PER_USER)

/-! ## The two maps -/

/-- `${auth.sub}:${Date.now()}:${random}`. -/
structure ConnId where
  address : String
  now : ℕ
  random : String
  deriving DecidableEq

/-- The keys of `connections` and the sets of `byUser`, and whether a subscription was begun. -/
structure Registry where
  connections : List ConnId
  byUser : String → Option (List ConnId)
  subscribed : Bool

/-- The members of a set with another one. -/
def insertNew (id : ConnId) (ids : List ConnId) : List ConnId :=
  if id ∈ ids then ids else ids ++ [id]

/-- `byUser.get(address) ?? new Set()`. -/
def Registry.userConns (r : Registry) (address : String) : List ConnId := (r.byUser address).getD []

def registerConnection (r : Registry) (id : ConnId) : Option Registry :=
  let userConns := r.userConns id.address
  if MAX_CONNECTIONS_PER_USER ≤ userConns.length then none
  else
    some { r with
      byUser := Function.update r.byUser id.address (some (insertNew id userConns))
      connections := insertNew id r.connections }

/-- The sets without the connection; one that is left empty is deleted. -/
def Registry.leave (r : Registry) (id : ConnId) : String → Option (List ConnId) :=
  Function.update r.byUser id.address <|
    ((r.byUser id.address).map fun userConns => userConns.filter (· ≠ id)).filter (· ≠ [])

def removeConnection (r : Registry) (id : ConnId) : Registry :=
  if id ∈ r.connections then
    { r with connections := r.connections.filter (· ≠ id), byUser := r.leave id }
  else r

/-! ## The handler -/

/-- A request, the time and the digits that its connection gets, and whether it is closed before the
handler runs. -/
structure Arrival where
  request : EventStream.Request
  now : ℕ
  random : String
  closed : Bool

/-- How far `eventsStreamHandler` has come. -/
inductive Phase where
  /-- Unauthorized, or over the limit. -/
  | refused
  | subscribing (id : ConnId) (lastEventId : Option String)
  | replaying (id : ConnId)
  | listening (id : ConnId)
  | threw (id : ConnId)
  deriving DecidableEq

/-- The handler, and whether its request is closed. -/
structure Call where
  phase : Phase
  closed : Bool
  deriving DecidableEq

/-- What is waited for is done or fails, or the request is closed. -/
inductive Outcome where
  | ok
  | failed
  | close

/-- Behind `await ensureSubscribed()`. -/
def subscribedPhase (id : ConnId) (lastEventId : Option String) : Phase :=
  if (lastEventId.filter (· ≠ "")).isSome then .replaying id else .listening id

variable (verify : String → Option EventStream.StreamTokenPayload)

/-- The handler up to where it waits first. -/
def start (r : Registry) (a : Arrival) : Registry × Call :=
  match EventStream.authenticate verify a.request with
  | none => (r, ⟨.refused, a.closed⟩)
  | some auth =>
    let id : ConnId := ⟨auth.sub, a.now, a.random⟩
    match registerConnection r id with
    | none => (r, ⟨.refused, a.closed⟩)
    | some r =>
      if r.subscribed then (r, ⟨subscribedPhase id a.request.lastEventId, a.closed⟩)
      else ({ r with subscribed := true }, ⟨.subscribing id a.request.lastEventId, a.closed⟩)

/-- What the close of a request does: if the handler listens, the connection is removed. -/
def Phase.onClose (r : Registry) : Phase → Registry
  | .listening id => removeConnection r id
  | .refused | .subscribing _ _ | .replaying _ | .threw _ => r

def next (r : Registry) (call : Call) : Outcome → Option (Registry × Call)
  | .ok =>
    match call.phase with
    | .subscribing id lastEventId => some (r, { call with phase := subscribedPhase id lastEventId })
    | .replaying id => some (r, { call with phase := .listening id })
    | .refused | .listening _ | .threw _ => none
  | .failed =>
    match call.phase with
    | .subscribing id _ => some (r, { call with phase := .threw id })
    -- `replayFromBuffer` may fail
    | .replaying id => some (r, { call with phase := .listening id })
    | .refused | .listening _ | .threw _ => none
  | .close => if call.closed then none else some (call.phase.onClose r,
      { call with closed := true })

def program : Concurrent.Program Registry Call Arrival Outcome Empty where
  start r a := some (start verify r a)
  next := next
  around _ e := e.elim

abbrev State := Concurrent.State Registry Call

abbrev Label := Concurrent.Label Arrival Outcome Empty

/-- Nobody is connected. -/
def Registry.fresh : Registry := ⟨[], fun _ => none, false⟩

def machine : Machine State Label := (program verify).machine (· = .fresh)

/-! ## What is claimed of it -/

/-- Both maps are empty. -/
def Registry.Empty (r : Registry) : Prop := r.connections = [] ∧ ∀ address, r.byUser address = none

/-- Every connection is in the set of its user, once, and in no other; nothing else is in a set, no
set is empty, and none is too large. -/
structure Consistent (r : Registry) : Prop where
  listed : ∀ id, ClassIndex.Listed r.userConns id
    (if id ∈ r.connections then some id.address else none)
  nonempty : ∀ address, r.byUser address ≠ some []
  capped : ∀ address, (r.userConns address).length ≤ MAX_CONNECTIONS_PER_USER

/-- The handler is done. -/
def Phase.Settled : Phase → Prop
  | .refused | .listening _ | .threw _ => True
  | .subscribing _ _ | .replaying _ => False

instance : DecidablePred Phase.Settled
  | .refused | .listening _ | .threw _ => .isTrue trivial
  | .subscribing _ _ | .replaying _ => .isFalse nofun

/-- All handlers have returned, and all requests are closed. -/
def Settled (s : State) : Prop := ∀ call ∈ s.calls, call.phase.Settled ∧ call.closed = true

instance (s : State) : Decidable (Settled s) := inferInstanceAs (Decidable (∀ _ ∈ _, _ ∧ _))

/-! ## The condition -/

/-- The connection is registered, and its handler may listen in time. -/
def Phase.Holds (id : ConnId) : Phase → Prop
  | .subscribing id' _ | .replaying id' | .listening id' => id' = id
  | .refused | .threw _ => False

def Phase.Subscribing : Phase → Prop
  | .subscribing _ _ => True
  | .refused | .replaying _ | .listening _ | .threw _ => False

instance : DecidablePred Phase.Subscribing
  | .subscribing _ _ => .isTrue trivial
  | .refused | .replaying _ | .listening _ | .threw _ => .isFalse nofun

/-- A request whose connection is registered is not closed before the handler listens, and the
subscription does not fail. -/
def Clear (s : State) : Label → Prop
  | .start a => a.closed = true → (start verify s.shared a).2.phase = .refused
  | .next i .close => ∀ call ∈ s.calls[i]?, call.phase.Settled
  | .next i .failed => ∀ call ∈ s.calls[i]?, ¬ call.phase.Subscribing
  | .next _ .ok | .around _ => True

instance (s : State) : (l : Label) → Decidable (Clear verify s l)
  | .start _ => inferInstanceAs (Decidable (_ → _))
  | .next i .close => inferInstanceAs (Decidable (∀ call ∈ s.calls[i]?, call.phase.Settled))
  | .next i .failed => inferInstanceAs (Decidable (∀ call ∈ s.calls[i]?, ¬ call.phase.Subscribing))
  | .next _ .ok | .around _ => .isTrue trivial

/-! ## Both maps -/

variable {verify} {r r' : Registry} {id : ConnId} {s : State}

theorem Consistent.fresh : Consistent .fresh where
  listed _ _ := rfl
  nonempty _ := nofun
  capped _ := Nat.zero_le _

theorem mem_insertNew {id' : ConnId} {ids : List ConnId} :
    id' ∈ insertNew id ids ↔ id' ∈ ids ∨ id' = id := by
  unfold insertNew
  split
  · rename_i hmem
    exact ⟨.inl, fun h => h.elim (fun h => h) fun h => h ▸ hmem⟩
  · rw [List.mem_append, List.mem_singleton]

theorem length_insertNew_le (ids : List ConnId) : (insertNew id ids).length ≤ ids.length + 1 := by
  unfold insertNew
  split
  · exact Nat.le_succ _
  · rw [List.length_append, List.length_singleton]

theorem registerConnection_eq_some (h : registerConnection r id = some r') :
    (r.userConns id.address).length < MAX_CONNECTIONS_PER_USER ∧
      r' = { r with
        byUser := Function.update r.byUser id.address (some (insertNew id (r.userConns id.address)))
        connections := insertNew id r.connections } := by
  rw [registerConnection] at h
  obtain ⟨hroom, heq⟩ := Option.ite_none_left_eq_some.mp h
  exact ⟨Nat.lt_of_not_le hroom, (Option.some_inj.mp heq).symm⟩

theorem userConns_register (h : registerConnection r id = some r') :
    r'.userConns = ClassIndex.add r.userConns id.address id := by
  obtain ⟨-, rfl⟩ := registerConnection_eq_some h
  funext address
  show (Function.update r.byUser id.address (some (insertNew id (r.userConns id.address)))
    address).getD [] = ClassIndex.add r.userConns id.address id address
  unfold ClassIndex.add insertNew
  by_cases haddress : address = id.address
  · subst haddress
    rw [Function.update_self]
    split
    · rfl
    · rw [Function.update_self]
      rfl
  · rw [Function.update_of_ne haddress]
    split
    · rfl
    · rw [Function.update_of_ne haddress]
      rfl

theorem Consistent.register (h : Consistent r) (hreg : registerConnection r id = some r') :
    Consistent r' := by
  have huser := userConns_register hreg
  obtain ⟨hroom, rfl⟩ := registerConnection_eq_some hreg
  refine ⟨fun id' => ?_, fun address => ?_, fun address => ?_⟩
  · rw [huser]
    have hlisted := h.listed id'
    by_cases hid : id' = id
    · subst hid
      rw [if_pos (mem_insertNew.mpr (.inr rfl))]
      by_cases hmem : id' ∈ r.connections
      · rw [if_pos hmem] at hlisted
        rw [hlisted.add_self]
        exact hlisted
      · rw [if_neg hmem] at hlisted
        exact hlisted.add id'.address
    · have hsame : id' ∈ insertNew id r.connections ↔ id' ∈ r.connections := by
        rw [mem_insertNew, or_iff_left hid]
      simp only [hsame]
      exact hlisted.add_other hid _
  · show Function.update r.byUser id.address _ address ≠ some []
    by_cases haddress : address = id.address
    · subst haddress
      rw [Function.update_self]
      intro hnil
      have hmem : id ∈ insertNew id (r.userConns id.address) := mem_insertNew.mpr (.inr rfl)
      rw [Option.some_inj.mp hnil] at hmem
      cases hmem
    · rw [Function.update_of_ne haddress]
      exact h.nonempty address
  · show ((Function.update r.byUser id.address _ address).getD []).length ≤ _
    by_cases haddress : address = id.address
    · subst haddress
      rw [Function.update_self]
      exact Nat.le_trans (length_insertNew_le _) hroom
    · rw [Function.update_of_ne haddress]
      exact h.capped address

theorem userConns_leave (r : Registry) (id : ConnId) (address : String) :
    ((r.leave id) address).getD [] = ClassIndex.drop r.userConns id.address id address := by
  unfold Registry.leave ClassIndex.drop
  by_cases haddress : address = id.address
  · subst haddress
    rw [Function.update_self, Function.update_self, Registry.userConns]
    cases r.byUser id.address with
    | none => rfl
    | some userConns =>
      rw [Option.map_some, Option.filter_some, Option.getD_some]
      split
      · rfl
      · rename_i hnil
        rw [decide_eq_true_eq, not_not] at hnil
        exact hnil.symm
  · rw [Function.update_of_ne haddress, Function.update_of_ne haddress]
    rfl

theorem leave_ne_nil (h : Consistent r) (id : ConnId) (address : String) :
    r.leave id address ≠ some [] := by
  unfold Registry.leave
  by_cases haddress : address = id.address
  · subst haddress
    rw [Function.update_self]
    intro hnil
    exact of_decide_eq_true (Option.filter_eq_some_iff.mp hnil).2 rfl
  · rw [Function.update_of_ne haddress]
    exact h.nonempty address

theorem Consistent.remove (h : Consistent r) (id : ConnId) :
    Consistent (removeConnection r id) := by
  unfold removeConnection
  split
  · rename_i hmem
    have huser : Registry.userConns ⟨r.connections.filter (· ≠ id), r.leave id, r.subscribed⟩ =
        ClassIndex.drop r.userConns id.address id := funext (userConns_leave r id)
    refine ⟨fun id' => ?_, leave_ne_nil h id, fun address => ?_⟩
    · rw [huser]
      have hlisted := h.listed id'
      by_cases hid : id' = id
      · subst hid
        rw [if_pos hmem] at hlisted
        rw [if_neg (by simp)]
        exact hlisted.drop
      · have hsame : id' ∈ r.connections.filter (· ≠ id) ↔ id' ∈ r.connections := by
          rw [List.mem_filter, and_iff_left (decide_eq_true hid)]
        simp only [hsame]
        exact hlisted.drop_other hid _
    · rw [huser]
      unfold ClassIndex.drop
      by_cases haddress : address = id.address
      · subst haddress
        rw [Function.update_self]
        exact Nat.le_trans (List.length_filter_le ..) (h.capped id.address)
      · rw [Function.update_of_ne haddress]
        exact h.capped address
  · exact h

/-! ## Over a run -/

theorem Consistent.start (h : Consistent r) (a : Arrival) : Consistent (start verify r a).1 := by
  unfold StreamRegistry.start
  split
  · exact h
  · dsimp only
    split
    · exact h
    · rename_i hreg
      have hregistered := h.register hreg
      split
      · exact hregistered
      · exact ⟨hregistered.listed, hregistered.nonempty, hregistered.capped⟩

theorem Consistent.onClose (h : Consistent r) (phase : Phase) : Consistent (phase.onClose r) := by
  cases phase with
  | listening id => exact h.remove id
  | refused => exact h
  | subscribing id lastEventId => exact h
  | replaying id => exact h
  | threw id => exact h

/-- Only a close changes the maps; otherwise the handler moves on, and holds its connection unless
the subscription fails. -/
theorem next_cases {call : Call} {outcome : Outcome} {q : Registry × Call}
    (h : next r call outcome = some q) :
    (outcome = .close ∧ call.closed = false ∧ q = (call.phase.onClose r, ⟨call.phase, true⟩)) ∨
    (q.1 = r ∧ q.2.closed = call.closed ∧
      ((outcome = .failed ∧ call.phase.Subscribing) ∨
        ∀ id, call.phase.Holds id → q.2.phase.Holds id)) := by
  obtain ⟨phase, closed⟩ := call
  cases outcome with
  | close =>
    obtain ⟨hopen, heq⟩ := Option.ite_none_left_eq_some.mp h
    exact .inl ⟨rfl, Bool.eq_false_iff.mpr hopen, (Option.some_inj.mp heq).symm⟩
  | ok =>
    cases phase with
    | refused => cases h
    | listening id => cases h
    | threw id => cases h
    | replaying id =>
      cases h
      exact .inr ⟨rfl, rfl, .inr fun _ hid => hid⟩
    | subscribing id lastEventId =>
      cases h
      refine .inr ⟨rfl, rfl, .inr fun id' hid => ?_⟩
      show (subscribedPhase id lastEventId).Holds id'
      unfold subscribedPhase
      split <;> exact hid
  | failed =>
    cases phase with
    | refused => cases h
    | listening id => cases h
    | threw id => cases h
    | replaying id =>
      cases h
      exact .inr ⟨rfl, rfl, .inr fun _ hid => hid⟩
    | subscribing id lastEventId =>
      cases h
      exact .inr ⟨rfl, rfl, .inl ⟨rfl, trivial⟩⟩

theorem consistent_of_reach {ok : State → Label → Prop} (h : (machine verify).Reach ok s) :
    Consistent s.shared := by
  refine (Concurrent.Reach.sharedInvariant (I := Consistent) (J := fun _ _ => True) ?_ ?_ ?_ ?_ h).1
  · rintro _ rfl
    exact .fresh
  · intro s a q _ hs hstart
    cases hstart
    exact ⟨hs.start a, trivial, fun _ _ _ => trivial⟩
  · intro s i outcome call q _ _ hs _ hnext
    refine ⟨?_, trivial, fun _ _ _ => trivial⟩
    rcases next_cases hnext with ⟨-, -, rfl⟩ | ⟨hsame, -⟩
    · exact hs.onClose call.phase
    · rw [hsame]
      exact hs
  · exact fun _ e => e.elim

/-- Every connection is held by the handler of a request that is not closed. -/
def Live (r : Registry) (calls : List Call) : Prop :=
  ∀ id ∈ r.connections, ∃ (i : ℕ) (call : Call), calls[i]? = some call ∧ call.closed = false ∧
    call.phase.Holds id

/-- A connection is there before a handler starts, or it is the handler's. -/
theorem mem_connections_start {a : Arrival} (h : id ∈ (start verify r a).1.connections) :
    id ∈ r.connections ∨
      (start verify r a).2.phase.Holds id ∧ (start verify r a).2.closed = a.closed := by
  unfold StreamRegistry.start at h ⊢
  split at h
  · exact .inl h
  · dsimp only at h ⊢
    split at h
    · exact .inl h
    · rename_i auth _ _ r' hreg
      obtain ⟨-, rfl⟩ := registerConnection_eq_some hreg
      have hmem : id ∈ insertNew ⟨auth.sub, a.now, a.random⟩ r.connections := by
        split at h <;> exact h
      refine (mem_insertNew.mp hmem).imp_right fun hid => ?_
      subst hid
      split
      · unfold subscribedPhase
        split <;> exact ⟨rfl, rfl⟩
      · exact ⟨rfl, rfl⟩

/-- A connection is there after a close if it was before, and was not the handler's. -/
theorem mem_connections_onClose {phase : Phase} (hsettled : phase.Settled)
    (h : id ∈ (phase.onClose r).connections) : id ∈ r.connections ∧ ¬ phase.Holds id := by
  cases phase with
  | refused => exact ⟨h, nofun⟩
  | threw id' => exact ⟨h, nofun⟩
  | subscribing id' lastEventId => exact hsettled.elim
  | replaying id' => exact hsettled.elim
  | listening id' =>
    change id ∈ (removeConnection r id').connections at h
    unfold removeConnection at h
    split at h
    · obtain ⟨hmem, hne⟩ := List.mem_filter.mp h
      exact ⟨hmem, fun heq => of_decide_eq_true hne heq.symm⟩
    · rename_i habsent
      refine ⟨h, fun heq => habsent ?_⟩
      rw [show id' = id from heq]
      exact h

theorem Live.start {calls : List Call} (h : Live r calls) {a : Arrival}
    (hclear : a.closed = true → (start verify r a).2.phase = .refused) :
    Live (start verify r a).1 (calls ++ [(start verify r a).2]) := by
  intro id hid
  rcases mem_connections_start hid with hold | ⟨hholds, hclosed⟩
  · obtain ⟨i, call, hcall, hopen, hholds⟩ := h id hold
    obtain ⟨hi, -⟩ := List.getElem?_eq_some_iff.mp hcall
    refine ⟨i, call, ?_, hopen, hholds⟩
    rw [List.getElem?_append_left hi]
    exact hcall
  · refine ⟨calls.length, _, List.getElem?_concat_length, ?_, hholds⟩
    rw [hclosed]
    refine Bool.eq_false_iff.mpr fun hearly => ?_
    rw [hclear hearly] at hholds
    exact hholds

theorem Live.next {calls : List Call} {i : ℕ} {call : Call} {outcome : Outcome}
    {q : Registry × Call}
    (h : Live r calls) (hcall : calls[i]? = some call) (hnext : next r call outcome = some q)
    (hclose : outcome = .close → call.phase.Settled)
    (hfailed : outcome = .failed → ¬ call.phase.Subscribing) :
    Live q.1 (calls.set i q.2) := by
  obtain ⟨hi, -⟩ := List.getElem?_eq_some_iff.mp hcall
  rcases next_cases hnext with ⟨hout, hopen, rfl⟩ | ⟨hsame, hclosed, hheld⟩
  · intro id hid
    obtain ⟨hold, hother⟩ := mem_connections_onClose (hclose hout) hid
    obtain ⟨j, call', hcall', hopen', hholds⟩ := h id hold
    have hne : i ≠ j := by
      rintro rfl
      rw [hcall] at hcall'
      cases hcall'
      exact hother hholds
    refine ⟨j, call', ?_, hopen', hholds⟩
    rw [List.getElem?_set_ne hne]
    exact hcall'
  · intro id hid
    rw [hsame] at hid
    obtain ⟨j, call', hcall', hopen', hholds⟩ := h id hid
    by_cases hij : i = j
    · subst hij
      rw [hcall] at hcall'
      cases hcall'
      refine ⟨i, q.2, List.getElem?_set_self hi, hclosed.trans hopen', ?_⟩
      rcases hheld with ⟨hout, hphase⟩ | hheld
      · exact absurd hphase (hfailed hout)
      · exact hheld id hholds
    · refine ⟨j, call', ?_, hopen', hholds⟩
      rw [List.getElem?_set_ne hij]
      exact hcall'

theorem live_of_reach (h : (machine verify).Reach (Clear verify) s) : Live s.shared s.calls := by
  refine Machine.Reach.invariant (I := fun s : State => Live s.shared s.calls) ?_ ?_ h
  · rintro s ⟨hfresh, -⟩
    rw [hfresh]
    exact fun id hid => nomatch hid
  · intro s l t hclear hstep hlive
    rcases Concurrent.step_cases hstep with ⟨a, q, rfl, hq, rfl⟩ | ⟨i, outcome, call, q, rfl, hcall,
      hq, rfl⟩ | ⟨e, -⟩
    · cases hq
      exact hlive.start hclear
    · refine hlive.next hcall hq ?_ ?_
      · rintro rfl
        exact hclear call hcall
      · rintro rfl
        exact hclear call hcall
    · exact e.elim

theorem Consistent.empty (h : Consistent r) (hnone : r.connections = []) : r.Empty := by
  refine ⟨hnone, fun address => ?_⟩
  cases huser : r.byUser address with
  | none => rfl
  | some ids =>
    cases ids with
    | nil => exact absurd huser (h.nonempty address)
    | cons id ids =>
      have hmem : id ∈ r.userConns address := by
        rw [Registry.userConns, huser]
        exact List.mem_cons_self
      have howner := (h.listed id).mem_iff.mp hmem
      rw [hnone, if_neg List.not_mem_nil] at howner
      cases howner

/-- **The registry.**  Both maps have the same connections, and no user has too many, in every
state.  If all handlers have returned and all requests are closed, both maps are empty, in every run
in which no registered request is closed before its handler listens and the subscription does not
fail. -/
theorem registry_of_reach (verify : String → Option EventStream.StreamTokenPayload) :
    (∀ s, (machine verify).Reach Machine.always s → Consistent s.shared) ∧
    ∀ s, (machine verify).Reach (Clear verify) s → Settled s → s.shared.Empty := by
  refine ⟨fun s hs => consistent_of_reach hs, fun s hs hsettled => ?_⟩
  refine (consistent_of_reach hs).empty (List.eq_nil_iff_forall_not_mem.mpr fun id hid => ?_)
  obtain ⟨i, call, hcall, hopen, -⟩ := live_of_reach hs id hid
  have hclosed := (hsettled call (List.mem_of_getElem? hcall)).2
  rw [hopen] at hclosed
  cases hclosed

/-- The tokens of two users. -/
def demoTokens (token : String) : Option EventStream.StreamTokenPayload :=
  if token = "first" then some ⟨"G1", "events:stream"⟩
  else if token = "second" then some ⟨"G2", "events:stream"⟩
  else none

def demoArrival (token random : String) (lastEventId : Option String) : Arrival :=
  ⟨⟨some token, none, lastEventId⟩, 1700000000000, random, false⟩

/-- Two users have three connections, one of which fails to replay, and then all of them are
closed. -/
theorem registry_of_reach_closed : ∃ s s', (machine demoTokens).Reach (Clear demoTokens) s ∧
    (machine demoTokens).Steps (Clear demoTokens) s s' ∧
    s.shared.userConns "G1" = [⟨"G1", 1700000000000, "a"⟩, ⟨"G1", 1700000000000, "c"⟩] ∧
    s.shared.userConns "G2" = [⟨"G2", 1700000000000, "b"⟩] ∧ Consistent s.shared ∧
    s'.calls.length = 3 ∧ s'.shared.Empty := by
  obtain ⟨s, s', hs, hsteps, ⟨hfirst, hsecond⟩, hcalls, hsettled⟩ :
      ∃ s s', (machine demoTokens).Reach (Clear demoTokens) s ∧
        (machine demoTokens).Steps (Clear demoTokens) s s' ∧
        (s.shared.userConns "G1" = [⟨"G1", 1700000000000, "a"⟩, ⟨"G1", 1700000000000, "c"⟩] ∧
          s.shared.userConns "G2" = [⟨"G2", 1700000000000, "b"⟩]) ∧
        s'.calls.length = 3 ∧ Settled s' :=
    Machine.exists_steps_of_runAll
      [.start (demoArrival "first" "a" none), .start (demoArrival "second" "b" none),
        .start (demoArrival "first" "c" (some "7"))]
      [.next 1 .close, .next 0 .ok, .next 2 .failed, .next 2 .close, .next 0 .close]
      (s := ⟨.fresh, []⟩) ⟨rfl, rfl⟩ (by decide)
  exact ⟨s, s', hs, hsteps, hfirst, hsecond, (registry_of_reach demoTokens).1 s hs.to_always,
    hcalls, (registry_of_reach demoTokens).2 s' (hs.trans hsteps) hsettled⟩

/-- The request is closed while the handler subscribes.  The connection is there for good. -/
theorem closed_while_subscribing : ¬ ∀ (verify : String → Option EventStream.StreamTokenPayload)
    (s : State), (machine verify).Reach Machine.always s → Settled s → s.shared.Empty := by
  intro h
  obtain ⟨s, hs, hsettled, hleft⟩ : ∃ s, (machine demoTokens).Reach Machine.always s ∧ Settled s ∧
      s.shared.connections = [⟨"G1", 1700000000000, "a"⟩] :=
    Machine.exists_reach_of_runAll
      [.start (demoArrival "first" "a" none), .next 0 .close, .next 0 .ok]
      (s := ⟨.fresh, []⟩) ⟨rfl, rfl⟩ (by decide)
  rw [(h demoTokens s hs hsettled).1] at hleft
  cases hleft

end NiffyInsure.Backend.StreamRegistry
