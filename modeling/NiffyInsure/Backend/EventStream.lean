import NiffyInsure.Lib.Feed
import NiffyInsure.Lib.JsString
import NiffyInsure.Lib.Machine

/-!
# The event stream

`publishEvent` appends an event to a buffer in Redis and then publishes it on a channel.
`eventsStreamHandler` registers its connection, subscribes to the channel unless that was begun
before, and answers a `Last-Event-ID` from the buffer: it reads all of it, and writes the matching
events behind the one with this id.  Every message of the channel is written to the connections that
match it, also while the buffer is being read.

A call of `publishEvent` is an event that is appended and one that is published later; what is
appended but not yet published is in `publishing`.  The verification of the token is a parameter.

* `resumed_once_of_reach`: a connection gets the events behind the id once and in order, as long as
  the events for it are published in the order of the buffer while the subscription is active, and
  none that the buffer has for it is delivered too.
-/

namespace NiffyInsure.Backend.EventStream

open Feed

/-! ## The data -/

inductive EventType where
  | claimVote
  | claimStatus
  | transactionConfirmed
  | transactionFailed
  deriving DecidableEq

structure StreamEvent where
  id : String
  type : EventType
  ts : ℕ
  claimIds : List String
  addresses : List String
  data : String
  deriving DecidableEq

/-- What `publishEvent` is called with. -/
structure PartialEvent where
  id : Option String
  type : EventType
  ts : Option ℕ
  claimIds : List String
  addresses : List String
  data : String
  deriving DecidableEq

/-- What was read of the buffer, and how long all of it was. -/
structure Snapshot where
  entries : List StreamEvent
  upTo : ℕ
  deriving DecidableEq

/-- How far `eventsStreamHandler` has come with a connection. -/
inductive Stage where
  | subscribing (lastEventId : Option String)
  | reading (lastEventId : String)
  | writing (lastEventId : String) (snapshot : Snapshot)
  | opened (resumed : Option (String × Snapshot))
  /-- Redis has failed the handler, which throws unless it was reading; what it would have read. -/
  | failed (threw : Bool) (lastEventId : Option String) (snapshot : Snapshot)
  deriving DecidableEq

/-- A registered connection, with the events that were written to it. -/
structure Connection where
  address : String
  claimIds : List String
  received : List StreamEvent
  stage : Stage
  deriving DecidableEq

structure StreamTokenPayload where
  sub : String
  scope : String

/-- The query and the header of a request. -/
structure Request where
  token : Option String
  claimIds : Option String
  lastEventId : Option String

/-- The buffer with all that was ever appended, how much of it is trimmed, the events that are
appended but not yet published, whether a subscription was begun and is active, the messages that it
has yet to deliver, and the connections. -/
structure State where
  buffer : List StreamEvent
  trimmed : ℕ
  publishing : List StreamEvent
  subscribed : Bool
  active : Bool
  inbox : List StreamEvent
  connections : List Connection

/-- How the next step of a handler goes. -/
inductive Outcome where
  | ok
  | failed
  | close

inductive Label where
  | connect (request : Request)
  /-- The handler of the connection `i` goes on. -/
  | handler (i : ℕ) (outcome : Outcome)
  /-- `publishEvent` appends, at a time, with random digits. -/
  | xAdd (event : PartialEvent) (now : ℕ) (random : String)
  | publish (i : ℕ)
  | publishFailed (i : ℕ)
  | deliver
  | trim (n : ℕ)

def MAX_CONNECTIONS_PER_USER : ℕ := 5

/-! ## The handler -/

def PartialEvent.full (event : PartialEvent) (now : ℕ) (random : String) : StreamEvent where
  id := event.id.getD (toString now ++ "-" ++ random)
  type := event.type
  ts := event.ts.getD now
  claimIds := event.claimIds
  addresses := event.addresses
  data := event.data

/-- Whether the connection is to get the event (`matches`). -/
def Connection.isMatch (conn : Connection) (event : StreamEvent) : Bool :=
  event.addresses.contains conn.address || event.claimIds.any conn.claimIds.contains

/-- The connection with more events written to it. -/
def Connection.write (conn : Connection) (events : List StreamEvent) : Connection :=
  { conn with received := conn.received ++ events }

/-- The connection in another stage. -/
def Connection.come (conn : Connection) (stage : Stage) : Connection := { conn with stage := stage }

def xRange (s : State) : List StreamEvent := s.buffer.drop s.trimmed

def State.snapshot (s : State) : Snapshot := ⟨xRange s, s.buffer.length⟩

/-- The loop of `replayFromBuffer`. -/
def replay (conn : Connection) (lastEventId : String) (found : Bool) :
    List StreamEvent → List StreamEvent
  | [] => []
  | event :: entries =>
    if found then
      if conn.isMatch event then event :: replay conn lastEventId found entries
      else replay conn lastEventId found entries
    else replay conn lastEventId (event.id = lastEventId) entries

variable (verify : String → Option StreamTokenPayload)

def authenticate (request : Request) : Option StreamTokenPayload :=
  ((request.token.filter (· ≠ "")).bind verify).filter fun payload =>
    payload.scope = "events:stream" ∧ payload.sub ≠ ""

def parseClaimIds (raw : Option String) : List String :=
  match raw with
  | some raw =>
    ((raw.toList.splitOn ',').map fun part => Js.trimString (String.ofList part)).filter (· ≠ "")
  | none => []

/-- How the handler goes on when it is subscribed. -/
def ready (lastEventId : Option String) : Stage :=
  match lastEventId with
  | some lastEventId => .reading lastEventId
  | none => .opened none

/-- Why no connection is registered. -/
inductive Refusal where
  | unauthorized
  | connectionLimit
  deriving DecidableEq

/-- `eventsStreamHandler`, up to where it waits first. -/
def connect (s : State) (request : Request) : Except Refusal State :=
  match authenticate verify request with
  | none => throw .unauthorized
  | some auth =>
    if MAX_CONNECTIONS_PER_USER ≤ (s.connections.filter (·.address = auth.sub)).length then
      throw .connectionLimit
    else
      let lastEventId := request.lastEventId.filter (· ≠ "")
      let stage := if s.subscribed then ready lastEventId else .subscribing lastEventId
      pure { s with
        connections := s.connections ++ [⟨auth.sub, parseClaimIds request.claimIds, [], stage⟩]
        subscribed := true }

/-- The next step of the handler; no connection is left when the client has closed it. -/
def handler (s : State) (conn : Connection) : Stage → Outcome → Option (State × Option Connection)
  | .subscribing lastEventId, .ok =>
    some ({ s with active := true }, some (conn.come (ready lastEventId)))
  | .subscribing lastEventId, .failed =>
    some (s, some (conn.come (.failed true lastEventId s.snapshot)))
  | .reading lastEventId, .ok =>
    some (s, some (conn.come (.writing lastEventId s.snapshot)))
  | .reading lastEventId, .failed =>
    some (s, some (conn.come (.failed false (some lastEventId) s.snapshot)))
  | .writing lastEventId snapshot, .ok =>
    some (s, some ((conn.write (replay conn lastEventId false snapshot.entries)).come
      (.opened (some (lastEventId, snapshot)))))
  | .opened _, .close | .failed false _ _, .close => some (s, none)
  | _, _ => none

/-- The connection `i` is left as it is now. -/
def State.put (i : ℕ) (q : State × Option Connection) : State :=
  { q.1 with
    connections := match q.2 with
      | some conn => q.1.connections.set i conn
      | none => q.1.connections.eraseIdx i }

/-- The subscription delivers a message. -/
def deliverTo (event : StreamEvent) (conn : Connection) : Connection :=
  if conn.isMatch event then conn.write [event] else conn

def act (s : State) : Label → Option State
  | .connect request =>
    match connect verify s request with
    | .ok s => some s
    | .error _ => some s
  | .handler i outcome =>
    s.connections[i]?.bind fun conn => (handler s conn conn.stage outcome).map (State.put i)
  | .xAdd event now random =>
    some { s with
      buffer := s.buffer ++ [event.full now random]
      publishing := s.publishing ++ [event.full now random] }
  | .publish i =>
    s.publishing[i]?.map fun event =>
      { s with
        publishing := s.publishing.eraseIdx i
        inbox := if s.active then s.inbox ++ [event] else s.inbox }
  | .publishFailed i => s.publishing[i]?.map fun _ =>
    { s with publishing := s.publishing.eraseIdx i }
  | .deliver =>
    match s.inbox with
    | [] => none
    | event :: inbox =>
      some { s with inbox, connections := s.connections.map (deliverTo event) }
  | .trim n => some { s with trimmed := s.trimmed + n }

/-- No event was published yet, and nobody is connected. -/
def State.fresh : State := ⟨[], 0, [], false, false, [], []⟩

def machine : Machine State Label := .ofAct (act verify) (· = .fresh)

/-! ## What is claimed of it -/

def Snapshot.has (snapshot : Snapshot) (lastEventId : String) : Bool :=
  snapshot.entries.any (·.id = lastEventId)

/-- The id of a connection that has yet to read the buffer. -/
def Stage.before : Stage → Option String
  | .subscribing lastEventId => lastEventId
  | .reading lastEventId => some lastEventId
  | .writing _ _ | .opened _ | .failed _ _ _ => none

/-- The id of a connection that has read the buffer, and found it. -/
def Stage.follows : Stage → Option (String × Snapshot)
  | .writing lastEventId snapshot | .opened (some (lastEventId, snapshot)) =>
    if snapshot.has lastEventId then some (lastEventId, snapshot) else none
  | .subscribing _ | .reading _ | .opened none | .failed _ _ _ => none

/-- The id of a connection that would have found it in the buffer. -/
def Stage.missed : Stage → Option String
  | .failed _ (some lastEventId) snapshot =>
    if snapshot.has lastEventId then some lastEventId else none
  | _ => none

/-- The id that the connection resumes from.  It counts unless the buffer did not have it when it
was read. -/
def Stage.resumes (stage : Stage) : Option String :=
  stage.before <|> stage.follows.map (·.1) <|> stage.missed

/-- The handler is done. -/
def Stage.isOpen : Stage → Bool
  | .opened _ | .failed _ _ _ => true
  | .subscribing _ | .reading _ | .writing _ _ => false

def behind (lastEventId : String) (buffer : List StreamEvent) : List StreamEvent :=
  after (·.id = lastEventId) buffer

/-- The events that the connection is to get. -/
def Connection.expected (conn : Connection) (lastEventId : String) (buffer : List StreamEvent) :
    List StreamEvent :=
  (behind lastEventId buffer).filter conn.isMatch

/-- What it has got of the events behind the id. -/
def Connection.got (conn : Connection) (lastEventId : String) (buffer : List StreamEvent) :
    List StreamEvent :=
  conn.received.filter fun event => (behind lastEventId buffer).contains event

/-- Nothing is being published or delivered. -/
def State.Settled (s : State) : Prop := s.publishing = [] ∧ s.inbox = []

instance (s : State) : Decidable s.Settled := inferInstanceAs (Decidable (_ ∧ _))

/-! ## The condition -/

/-- The connection has read the buffer, and is to get the event over the channel. -/
def Connection.awaits (conn : Connection) (buffer : List StreamEvent)
    (event : StreamEvent) : Bool :=
  conn.stage.follows.any fun p => conn.isMatch event && !(buffer.take p.2.upTo).contains event

/-- The buffer does not have the event for the connection too, and what it has is written before. -/
structure Connection.Admits (conn : Connection) (buffer : List StreamEvent)
    (event : StreamEvent) : Prop where
  before : ∀ id ∈ conn.stage.before, event ∉ behind id buffer
  follows : ∀ p ∈ conn.stage.follows, event ∈ behind p.1 buffer →
    event ∉ buffer.take p.2.upTo ∧
      (conn.stage.isOpen = false → replay conn p.1 false p.2.entries = [])

/-- Redis does not fail a handler whose id the buffer has. -/
def Spared (s : State) : Stage → Outcome → Prop
  | .subscribing lastEventId, .failed => ∀ id ∈ lastEventId, s.snapshot.has id = false
  | .reading lastEventId, .failed => s.snapshot.has lastEventId = false
  | _, _ => True

/-- Ids are distinct, Redis does not fail, an event is published while the subscription is active
and after the earlier ones that the same connection awaits, and a message is delivered to
connections that admit it. -/
def Clear (s : State) : Label → Prop
  | .connect _ | .trim _ => True
  | .handler i outcome => ∀ conn ∈ s.connections[i]?, Spared s conn.stage outcome
  | .xAdd event now random => ∀ old ∈ s.buffer, old.id ≠ (event.full now random).id
  | .publish i => ∀ event ∈ s.publishing[i]?, ∀ conn ∈ s.connections,
    conn.awaits s.buffer event = true →
      s.active = true ∧ ∀ earlier ∈ s.publishing.take i, conn.awaits s.buffer earlier = false
  | .publishFailed i => ∀ event ∈ s.publishing[i]?, ∀ conn ∈ s.connections,
    conn.awaits s.buffer event = false
  | .deliver => ∀ event ∈ s.inbox.head?, ∀ conn ∈ s.connections,
    conn.isMatch event = true → conn.Admits s.buffer event

instance (conn : Connection) (buffer : List StreamEvent) (event : StreamEvent) :
    Decidable (conn.Admits buffer event) :=
  decidable_of_iff
    ((∀ id ∈ conn.stage.before, event ∉ behind id buffer) ∧
      ∀ p ∈ conn.stage.follows, event ∈ behind p.1 buffer →
        event ∉ buffer.take p.2.upTo ∧
          (conn.stage.isOpen = false → replay conn p.1 false p.2.entries = []))
    ⟨fun h => ⟨h.1, h.2⟩, fun h => ⟨h.1, h.2⟩⟩

instance (s : State) (stage : Stage) (outcome : Outcome) : Decidable (Spared s stage outcome) := by
  unfold Spared
  split <;> infer_instance

instance (s : State) (l : Label) : Decidable (Clear s l) := by
  unfold Clear
  split <;> infer_instance

/-! ## What a connection has got -/

variable {s t : State} {conn : Connection} {event : StreamEvent} {buffer : List StreamEvent}
  {id lastEventId : String} {snapshot : Snapshot}

theorem replay_of_found (conn : Connection) (lastEventId : String) (entries : List StreamEvent) :
    replay conn lastEventId true entries = entries.filter conn.isMatch := by
  induction entries with
  | nil => rfl
  | cons event entries ih =>
    rw [replay, if_pos rfl, ih, List.filter_cons]

theorem replay_eq (conn : Connection) (lastEventId : String) (entries : List StreamEvent) :
    replay conn lastEventId false entries = (behind lastEventId entries).filter conn.isMatch := by
  induction entries with
  | nil => rfl
  | cons event entries ih =>
    rw [replay, if_neg Bool.false_ne_true, behind, after]
    by_cases h : event.id = lastEventId
    · rw [decide_eq_true h, if_pos rfl, replay_of_found]
    · rw [decide_eq_false h, if_neg Bool.false_ne_true, ih]
      rfl

/-- The snapshot was taken of the buffer. -/
structure Snapshot.Of (snapshot : Snapshot) (lastEventId : String)
    (buffer : List StreamEvent) : Prop where
  le : snapshot.upTo ≤ buffer.length
  has : ∃ event ∈ buffer.take snapshot.upTo, event.id = lastEventId
  behind : behind lastEventId snapshot.entries = behind lastEventId (buffer.take snapshot.upTo)

/-- What holds of a connection.  Before it has read the buffer, it has got nothing behind the id;
then, what it has got is the replay, if that is written, and what it has got over the channel. -/
structure Connection.Sound (s : State) (conn : Connection) : Prop where
  before : ∀ id ∈ conn.stage.before, conn.got id s.buffer = []
  follows : ∀ p ∈ conn.stage.follows, p.2.Of p.1 s.buffer ∧
    ∃ live, Follows s.buffer p.2.upTo conn.isMatch live s.inbox s.publishing ∧
      conn.got p.1 s.buffer =
        (if conn.stage.isOpen then replay conn p.1 false p.2.entries else []) ++ live
  writing : conn.stage.isOpen = false → ∀ p ∈ conn.stage.follows,
    conn.got p.1 s.buffer = [] ∨ replay conn p.1 false p.2.entries = []
  missed : conn.stage.missed = none

structure State.Sound (s : State) : Prop where
  distinct : (s.buffer.map (·.id)).Nodup
  inbox : ∀ event ∈ s.inbox, event ∈ s.buffer
  publishing : ∀ event ∈ s.publishing, event ∈ s.buffer
  received : ∀ conn ∈ s.connections, ∀ event ∈ conn.received, event ∈ s.buffer
  connections : ∀ conn ∈ s.connections, conn.Sound s

theorem Connection.write_nil : conn.write [] = conn := by
  rw [Connection.write, List.append_nil]

theorem replay_write (conn : Connection) (events : List StreamEvent) (lastEventId : String)
    (entries : List StreamEvent) :
    replay (conn.write events) lastEventId false entries =
      replay conn lastEventId false entries := by
  rw [replay_eq, replay_eq]
  rfl

theorem got_write (conn : Connection) (events : List StreamEvent) (lastEventId : String)
    (buffer : List StreamEvent) :
    (conn.write events).got lastEventId buffer = conn.got lastEventId buffer ++
      events.filter fun event => (EventStream.behind lastEventId buffer).contains event :=
  List.filter_append ..

/-- More is written to the connection, or more is appended, published or delivered. -/
theorem Connection.Sound.keep (h : conn.Sound s) (events : List StreamEvent)
    (hbefore : ∀ id ∈ conn.stage.before, (conn.write events).got id t.buffer = conn.got id s.buffer)
    (hfollows : ∀ p ∈ conn.stage.follows, p.2.Of p.1 s.buffer → p.2.Of p.1 t.buffer ∧
      ∃ more, (conn.write events).got p.1 t.buffer = conn.got p.1 s.buffer ++ more ∧
        (∀ live, Follows s.buffer p.2.upTo conn.isMatch live s.inbox s.publishing →
          Follows t.buffer p.2.upTo conn.isMatch (live ++ more) t.inbox t.publishing) ∧
        (conn.stage.isOpen = false → more = [] ∨ replay conn p.1 false p.2.entries = [])) :
    (conn.write events).Sound t := by
  refine ⟨?_, ?_, ?_, h.missed⟩
  · intro id hid
    rw [hbefore id hid]
    exact h.before id hid
  · intro p hp
    obtain ⟨hof, live, hlive, hgot⟩ := h.follows p hp
    obtain ⟨hof', more, hmore, hfeed, -⟩ := hfollows p hp hof
    refine ⟨hof', live ++ more, hfeed live hlive, ?_⟩
    rw [hmore, hgot, replay_write, List.append_assoc]
    rfl
  · intro hopen p hp
    obtain ⟨-, more, hmore, -, hwriting⟩ := hfollows p hp (h.follows p hp).1
    rw [hmore, replay_write]
    obtain hgot | hreplay := h.writing hopen p hp
    · obtain hnil | hreplay := hwriting hopen
      · exact .inl (by rw [hgot, hnil]; rfl)
      · exact .inr hreplay
    · exact .inr hreplay

/-! ## One step -/

theorem Connection.Sound.congr (h : conn.Sound s) (hbuffer : t.buffer = s.buffer)
    (hinbox : t.inbox = s.inbox) (hpublishing : t.publishing = s.publishing) : conn.Sound t := by
  refine ⟨?_, ?_, ?_, h.missed⟩
  · rw [hbuffer]
    exact h.before
  · rw [hbuffer, hinbox, hpublishing]
    exact h.follows
  · rw [hbuffer]
    exact h.writing

theorem got_append (hreceived : ∀ old ∈ conn.received, old ∈ buffer) (hnew : event ∉ buffer) :
    conn.got id (buffer ++ [event]) = conn.got id buffer := by
  refine List.filter_congr fun old hold => ?_
  have hne : old ∉ [event] := fun h => hnew (List.mem_singleton.mp h ▸ hreceived old hold)
  rw [Bool.eq_iff_iff, List.contains_iff_mem, List.contains_iff_mem]
  exact mem_after_append hne

theorem Snapshot.Of.append (h : snapshot.Of lastEventId buffer) :
    snapshot.Of lastEventId (buffer ++ [event]) := by
  have htake : (buffer ++ [event]).take snapshot.upTo = buffer.take snapshot.upTo :=
    List.take_append_of_le_length h.le
  refine ⟨?_, ?_, ?_⟩
  · rw [List.length_append]
    exact Nat.le_add_right_of_le h.le
  · rw [htake]
    exact h.has
  · rw [htake]
    exact h.behind

theorem State.Sound.xAdd (h : s.Sound) (hnew : ∀ old ∈ s.buffer, old.id ≠ event.id) :
    State.Sound { s with buffer := s.buffer ++ [event], publishing :=
      s.publishing ++ [event] } := by
  have hmem : event ∉ s.buffer := fun hmem => hnew event hmem rfl
  refine ⟨?_, ?_, ?_, ?_, ?_⟩
  · rw [List.map_append]
    refine List.Nodup.append h.distinct (List.nodup_singleton _) ?_
    intro old hold hsame
    obtain ⟨old', hold', rfl⟩ := List.mem_map.mp hold
    exact hnew old' hold' (List.mem_singleton.mp hsame)
  · exact fun old hold => List.mem_append_left _ (h.inbox old hold)
  · intro old hold
    obtain hold | hold := List.mem_append.mp hold
    · exact List.mem_append_left _ (h.publishing old hold)
    · exact List.mem_append_right _ hold
  · exact fun conn hconn old hold => List.mem_append_left _ (h.received conn hconn old hold)
  · intro conn hconn
    rw [← conn.write_nil]
    refine (h.connections conn hconn).keep [] ?_ ?_
    · intro id _
      rw [conn.write_nil]
      exact got_append (h.received conn hconn) hmem
    · intro p hp hof
      refine ⟨hof.append, [], ?_, ?_, fun _ => .inl rfl⟩
      · rw [conn.write_nil, List.append_nil]
        exact got_append (h.received conn hconn) hmem
      · intro live hlive
        rw [List.append_nil]
        exact hlive.append

theorem State.Sound.sent {inbox : List StreamEvent} {i : ℕ} (h : s.Sound)
    (hi : s.publishing[i]? = some event) (hinbox : inbox = s.inbox ∨ inbox = s.inbox ++ [event])
    (hfollows : ∀ conn ∈ s.connections, ∀ p ∈ conn.stage.follows,
      ∀ live, Follows s.buffer p.2.upTo conn.isMatch live s.inbox s.publishing →
        Follows s.buffer p.2.upTo conn.isMatch live inbox (s.publishing.eraseIdx i)) :
    State.Sound { s with publishing := s.publishing.eraseIdx i, inbox } := by
  refine ⟨h.distinct, ?_, ?_, h.received, ?_⟩
  · obtain rfl | rfl := hinbox
    · exact h.inbox
    · intro old hold
      obtain hold | hold := List.mem_append.mp hold
      · exact h.inbox old hold
      · rw [List.mem_singleton.mp hold]
        exact h.publishing event (List.mem_of_getElem? hi)
  · exact fun old hold => h.publishing old (List.mem_of_mem_eraseIdx hold)
  · intro conn hconn
    rw [← conn.write_nil]
    refine (h.connections conn hconn).keep [] ?_ ?_
    · intro id _
      rw [conn.write_nil]
    · intro p hp hof
      refine ⟨hof, [], ?_, ?_, fun _ => .inl rfl⟩
      · rw [conn.write_nil, List.append_nil]
      · intro live hlive
        rw [List.append_nil]
        exact hfollows conn hconn p hp live hlive

/-- A connection awaits what concerns it and it has not read. -/
theorem awaits_of_follows {p : String × Snapshot} (hp : p ∈ conn.stage.follows) :
    conn.awaits buffer event = true ↔ conn.isMatch event = true ∧ event ∉ buffer.take p.2.upTo := by
  rw [Connection.awaits, Option.mem_def.mp hp, Option.any_some, Bool.and_eq_true, Bool.not_eq_true',
    List.contains_eq_mem, decide_eq_false_iff_not]

theorem State.Sound.publish {i : ℕ} (h : s.Sound) (hi : s.publishing[i]? = some event)
    (hclear : ∀ conn ∈ s.connections, conn.awaits s.buffer event = true →
      s.active = true ∧ ∀ earlier ∈ s.publishing.take i, conn.awaits s.buffer earlier = false) :
    State.Sound { s with
      publishing := s.publishing.eraseIdx i
      inbox := if s.active then s.inbox ++ [event] else s.inbox } := by
  have hinbox : (if s.active then s.inbox ++ [event] else s.inbox) = s.inbox ∨
      (if s.active then s.inbox ++ [event] else s.inbox) = s.inbox ++ [event] := by
    split
    · exact .inr rfl
    · exact .inl rfl
  refine h.sent hi hinbox ?_
  intro conn hconn p hp live hlive
  by_cases hawaits : conn.awaits s.buffer event = true
  · obtain ⟨hactive, hfirst⟩ := hclear conn hconn hawaits
    rw [hactive, if_pos rfl]
    refine hlive.send hi fun earlier hearlier hmatch => ?_
    have hnot : ¬ conn.awaits s.buffer earlier = true := by
      rw [hfirst earlier hearlier]
      exact Bool.false_ne_true
    rw [awaits_of_follows hp] at hnot
    exact Decidable.not_not.mp fun hread => hnot ⟨hmatch, hread⟩
  · rw [awaits_of_follows hp] at hawaits
    exact hlive.skip hi hawaits hinbox

theorem State.Sound.publishFailed {i : ℕ} (h : s.Sound) (hi : s.publishing[i]? = some event)
    (hclear : ∀ conn ∈ s.connections, conn.awaits s.buffer event = false) :
    State.Sound { s with publishing := s.publishing.eraseIdx i } := by
  refine h.sent hi (.inl rfl) ?_
  intro conn hconn p hp live hlive
  have hnot : ¬ conn.awaits s.buffer event = true := by
    rw [hclear conn hconn]
    exact Bool.false_ne_true
  rw [awaits_of_follows hp] at hnot
  exact hlive.skip hi hnot (.inl rfl)

/-- Behind the id is what is behind it in what was read, and all that was not read. -/
theorem Snapshot.Of.behind_eq (hof : snapshot.Of lastEventId buffer) :
    EventStream.behind lastEventId buffer =
      EventStream.behind lastEventId snapshot.entries ++ buffer.drop snapshot.upTo := by
  obtain ⟨mark, hmark, hid⟩ := hof.has
  have hseam : EventStream.behind lastEventId (buffer.take snapshot.upTo ++
    buffer.drop snapshot.upTo) =
      EventStream.behind lastEventId (buffer.take snapshot.upTo) ++ buffer.drop snapshot.upTo :=
    after_append_of_mem ⟨mark, hmark, decide_eq_true hid⟩
  rwa [List.take_append_drop, ← hof.behind] at hseam

theorem mem_behind (hof : snapshot.Of lastEventId buffer) (hevent : event ∈ buffer)
    (hunread : event ∉ buffer.take snapshot.upTo) : event ∈ behind lastEventId buffer := by
  rw [← List.take_append_drop snapshot.upTo buffer] at hevent
  rw [hof.behind_eq]
  exact List.mem_append_right _ ((List.mem_append.mp hevent).resolve_left hunread)

theorem Connection.Sound.deliver {inbox : List StreamEvent} (h : conn.Sound s)
    (hinbox : s.inbox = event :: inbox) (hevent : event ∈ s.buffer)
    (hclear : conn.isMatch event = true → conn.Admits s.buffer event) :
    (deliverTo event conn).Sound
      { s with inbox, connections := s.connections.map (deliverTo event) } := by
  rw [deliverTo]
  split
  · rename_i hmatch
    obtain ⟨hbefore, hfollows⟩ := hclear hmatch
    refine h.keep [event] ?_ ?_
    · intro id hid
      have hnot : (EventStream.behind id s.buffer).contains event = false := by
        rw [List.contains_eq_mem]
        exact decide_eq_false (hbefore id hid)
      rw [got_write, List.filter_cons_of_neg (by rw [hnot]; exact Bool.false_ne_true)]
      exact List.append_nil _
    · intro p hp hof
      refine ⟨hof, unread s.buffer p.2.upTo conn.isMatch [event], ?_, ?_, ?_⟩
      · -- behind the id is what was not read, as what was read does not come again
        rw [got_write]
        refine congrArg _ (List.filter_congr fun old hold => ?_)
        rw [List.mem_singleton.mp hold, hmatch, Bool.true_and, Bool.eq_iff_iff,
          List.contains_iff_mem, Bool.not_eq_true', List.contains_eq_mem, decide_eq_false_iff_not]
        exact ⟨fun hbehind => (hfollows p hp hbehind).1, mem_behind hof hevent⟩
      · intro live hlive
        rw [hinbox] at hlive
        exact hlive.receive
      · intro hopen
        by_cases hunread : event ∈ s.buffer.take p.2.upTo
        · refine .inl (List.filter_eq_nil_iff.mpr fun old hold hnew => ?_)
          have hnot := (mem_unread.mp (List.mem_filter.mpr ⟨hold, hnew⟩)).2.2
          rw [List.mem_singleton.mp hold] at hnot
          exact hnot hunread
        · exact .inr ((hfollows p hp (mem_behind hof hevent hunread)).2 hopen)
  · rename_i hmatch
    rw [← conn.write_nil]
    refine h.keep [] ?_ ?_
    · intro id _
      rw [conn.write_nil]
    · intro p hp hof
      refine ⟨hof, [], ?_, ?_, fun _ => .inl rfl⟩
      · rw [conn.write_nil, List.append_nil]
      · intro live hlive
        have hnil : unread s.buffer p.2.upTo conn.isMatch [event] = [] :=
          List.filter_eq_nil_iff.mpr fun old hold hnew => by
            have hrel := (mem_unread.mp (List.mem_filter.mpr ⟨hold, hnew⟩)).2.1
            rw [List.mem_singleton.mp hold] at hrel
            exact hmatch hrel
        rw [hinbox] at hlive
        rw [← hnil]
        exact hlive.receive

theorem State.Sound.deliver {inbox : List StreamEvent} (h : s.Sound)
    (hinbox : s.inbox = event :: inbox)
    (hclear : ∀ conn ∈ s.connections, conn.isMatch event = true → conn.Admits s.buffer event) :
    State.Sound { s with inbox, connections := s.connections.map (deliverTo event) } := by
  have hevent : event ∈ s.buffer := h.inbox event (hinbox ▸ List.mem_cons_self)
  refine ⟨h.distinct, ?_, h.publishing, ?_, ?_⟩
  · exact fun old hold => h.inbox old (hinbox ▸ List.mem_cons_of_mem event hold)
  · intro conn hconn old hold
    obtain ⟨conn', hconn', rfl⟩ := List.mem_map.mp hconn
    rw [deliverTo] at hold
    split at hold
    · obtain hold | hold := List.mem_append.mp hold
      · exact h.received conn' hconn' old hold
      · rw [List.mem_singleton.mp hold]
        exact hevent
    · exact h.received conn' hconn' old hold
  · intro conn hconn
    obtain ⟨conn', hconn', rfl⟩ := List.mem_map.mp hconn
    exact (h.connections conn' hconn').deliver hinbox hevent (hclear conn' hconn')

/-! ### The handler -/

theorem has_eq_true : snapshot.has lastEventId = true ↔
    ∃ event ∈ snapshot.entries, event.id = lastEventId := by
  rw [Snapshot.has, List.any_eq_true]
  simp only [decide_eq_true_eq]

theorem replay_of_not_has (h : snapshot.has lastEventId = false) :
    replay conn lastEventId false snapshot.entries = [] := by
  have hnone : behind lastEventId snapshot.entries = [] :=
    after_eq_nil fun event hevent => by
      have hne := List.any_eq_false.mp h event hevent
      exact Bool.eq_false_iff.mpr hne
  rw [replay_eq, hnone]
  rfl

theorem snapshot_of (hdistinct : (s.buffer.map (·.id)).Nodup)
    (hhas : s.snapshot.has lastEventId = true) : s.snapshot.Of lastEventId s.buffer := by
  obtain ⟨mark, hmark, hid⟩ := has_eq_true.mp hhas
  have htake : s.buffer.take s.snapshot.upTo = s.buffer := List.take_length
  refine ⟨le_rfl, ?_, ?_⟩
  · rw [htake]
    exact ⟨mark, List.mem_of_mem_drop hmark, hid⟩
  · rw [htake]
    refine after_drop ⟨mark, hmark, decide_eq_true hid⟩ ?_
    -- the trimmed entries have other ids
    intro old hold new hnew hold' hnew'
    rw [← List.take_append_drop s.trimmed s.buffer, List.map_append] at hdistinct
    refine List.disjoint_of_nodup_append hdistinct (List.mem_map_of_mem hold) ?_
    rw [of_decide_eq_true hold', ← of_decide_eq_true hnew']
    exact List.mem_map_of_mem hnew

theorem mem_replay (hof : snapshot.Of lastEventId buffer)
    (hevent : event ∈ replay conn lastEventId false snapshot.entries) :
    event ∈ behind lastEventId buffer := by
  rw [replay_eq] at hevent
  rw [hof.behind_eq]
  exact List.mem_append_left _ (List.mem_filter.mp hevent).1

/-- A stage in which the buffer is not to be read, or was not read with success. -/
theorem sound_of_none (hbefore : conn.stage.before = none) (hfollows : conn.stage.follows = none)
    (hmissed : conn.stage.missed = none) : conn.Sound s := by
  refine ⟨?_, ?_, ?_, hmissed⟩
  · rw [hbefore]
    exact nofun
  · rw [hfollows]
    exact nofun
  · rw [hfollows]
    exact nofun

theorem sound_of_before (hgot : ∀ id ∈ conn.stage.before, conn.got id s.buffer = [])
    (hfollows : conn.stage.follows = none) (hmissed : conn.stage.missed = none) : conn.Sound s := by
  refine ⟨hgot, ?_, ?_, hmissed⟩
  · rw [hfollows]
    exact nofun
  · rw [hfollows]
    exact nofun

theorem ready_before (lastEventId : Option String) : (ready lastEventId).before = lastEventId := by
  cases lastEventId <;> rfl

theorem ready_follows (lastEventId : Option String) : (ready lastEventId).follows = none := by
  cases lastEventId <;> rfl

theorem ready_missed (lastEventId : Option String) : (ready lastEventId).missed = none := by
  cases lastEventId <;> rfl

/-- What was read is all that the connection has yet to follow from. -/
theorem sound_of_read (hs : s.Sound) (hgot : conn.got lastEventId s.buffer = [])
    (hstage : conn.stage = .writing lastEventId s.snapshot) : conn.Sound s := by
  have hfollows {p : String × Snapshot} (hp : p ∈ conn.stage.follows) :
      s.snapshot.has lastEventId = true ∧ p = (lastEventId, s.snapshot) := by
    rw [hstage, Option.mem_def] at hp
    obtain ⟨hhas, hp⟩ := Option.ite_none_right_eq_some.mp hp
    cases hp
    exact ⟨hhas, rfl⟩
  refine ⟨?_, ?_, ?_, ?_⟩
  · rw [hstage]
    exact nofun
  · intro p hp
    obtain ⟨hhas, rfl⟩ := hfollows hp
    refine ⟨snapshot_of hs.distinct hhas, [], .start hs.inbox hs.publishing, ?_⟩
    rw [hgot, hstage]
    rfl
  · intro _ p hp
    obtain ⟨-, rfl⟩ := hfollows hp
    exact .inl hgot
  · rw [hstage]
    rfl

theorem sound_of_write (h : conn.Sound s) (hstage : conn.stage = .writing lastEventId snapshot) :
    Connection.Sound s ((conn.write (replay conn lastEventId false snapshot.entries)).come
      (.opened (some (lastEventId, snapshot)))) := by
  refine ⟨nofun, ?_, nofun, rfl⟩
  intro p hp
  obtain ⟨hhas, hp⟩ := Option.ite_none_right_eq_some.mp hp
  cases hp
  have hold : (lastEventId, snapshot) ∈ conn.stage.follows := by
    rw [hstage]
    exact if_pos hhas
  have hopen : conn.stage.isOpen = false := by
    rw [hstage]
    rfl
  obtain ⟨hof, live, hlive, hgot⟩ := h.follows _ hold
  rw [hopen, if_neg Bool.false_ne_true, List.nil_append] at hgot
  refine ⟨hof, live, hlive, ?_⟩
  show _ = replay ((conn.write _).come _) lastEventId false snapshot.entries ++ live
  have hall : (replay conn lastEventId false snapshot.entries).filter
      (fun event => (behind lastEventId s.buffer).contains event) =
        replay conn lastEventId false snapshot.entries :=
    List.filter_eq_self.mpr fun event hevent => List.contains_iff_mem.mpr (mem_replay hof hevent)
  calc (conn.write (replay conn lastEventId false snapshot.entries)).got lastEventId s.buffer
      = live ++ replay conn lastEventId false snapshot.entries := by rw [got_write, hall, hgot]
    _ = replay conn lastEventId false snapshot.entries ++ live := by
      obtain hnil | hnil := h.writing hopen _ hold
      · rw [hgot] at hnil
        rw [hnil, List.append_nil, List.nil_append]
      · dsimp only at hnil
        rw [hnil, List.append_nil, List.nil_append]
    _ = replay ((conn.write _).come _) lastEventId false snapshot.entries ++ live := by
      rw [replay_eq, replay_eq]
      rfl

theorem mem_of_replay (h : conn.Sound s) (hstage : conn.stage = .writing lastEventId snapshot)
    (hevent : event ∈ replay conn lastEventId false snapshot.entries) : event ∈ s.buffer := by
  cases hhas : snapshot.has lastEventId with
  | false =>
    rw [replay_of_not_has hhas] at hevent
    cases hevent
  | true =>
    have hp : (lastEventId, snapshot) ∈ conn.stage.follows := by
      rw [hstage]
      exact if_pos hhas
    exact mem_of_mem_after (mem_replay (h.follows _ hp).1 hevent)

/-- A step of a handler leaves its own connection sound. -/
theorem sound_handler {outcome : Outcome} {q : State × Option Connection} (hs : s.Sound)
    (hconn : conn ∈ s.connections) (hclear : Spared s conn.stage outcome)
    (h : handler s conn conn.stage outcome = some q) :
    (q.1 = s ∨ q.1 = { s with active := true }) ∧
      ∀ conn' ∈ q.2, conn'.Sound s ∧ ∀ event ∈ conn'.received, event ∈ s.buffer := by
  have hold := hs.connections conn hconn
  have hreceived := hs.received conn hconn
  cases hstage : conn.stage with
  | subscribing lastEventId =>
    rw [hstage] at h hclear
    have hbefore := hold.before
    rw [hstage] at hbefore
    cases outcome with
    | ok =>
      cases h
      refine ⟨.inr rfl, ?_⟩
      rintro conn' ⟨⟩
      refine ⟨sound_of_before ?_ (ready_follows _) (ready_missed _), hreceived⟩
      show ∀ id ∈ (ready lastEventId).before, _
      rw [ready_before]
      exact hbefore
    | failed =>
      cases h
      refine ⟨.inl rfl, ?_⟩
      rintro conn' ⟨⟩
      refine ⟨sound_of_none rfl rfl ?_, hreceived⟩
      cases lastEventId with
      | none => rfl
      | some id =>
        show (if s.snapshot.has id = true then some id else none) = none
        rw [hclear id rfl, if_neg Bool.false_ne_true]
    | close => cases h
  | reading lastEventId =>
    rw [hstage] at h hclear
    have hbefore := hold.before
    rw [hstage] at hbefore
    cases outcome with
    | ok =>
      cases h
      refine ⟨.inl rfl, ?_⟩
      rintro conn' ⟨⟩
      exact ⟨sound_of_read hs (hbefore lastEventId rfl) rfl, hreceived⟩
    | failed =>
      cases h
      refine ⟨.inl rfl, ?_⟩
      rintro conn' ⟨⟩
      refine ⟨sound_of_none rfl rfl ?_, hreceived⟩
      show (if s.snapshot.has lastEventId = true then some lastEventId else none) = none
      rw [show s.snapshot.has lastEventId = false from hclear, if_neg Bool.false_ne_true]
    | close => cases h
  | writing lastEventId snapshot =>
    rw [hstage] at h
    cases outcome with
    | ok =>
      cases h
      refine ⟨.inl rfl, ?_⟩
      rintro conn' ⟨⟩
      refine ⟨sound_of_write hold hstage, ?_⟩
      intro event hevent
      obtain hevent | hevent := List.mem_append.mp hevent
      · exact hreceived event hevent
      · exact mem_of_replay hold hstage hevent
    | failed => cases h
    | close => cases h
  | opened resumed =>
    rw [hstage] at h
    cases outcome with
    | close =>
      cases h
      exact ⟨.inl rfl, nofun⟩
    | ok => cases h
    | failed => cases h
  | failed threw lastEventId snapshot =>
    rw [hstage] at h
    cases threw with
    | true => cases outcome <;> cases h
    | false =>
      cases outcome with
      | close =>
        cases h
        exact ⟨.inl rfl, nofun⟩
      | ok => cases h
      | failed => cases h

/-- The subscription and the list of the connections are all that the handlers change. -/
theorem State.Sound.congr (h : s.Sound) (hbuffer : t.buffer = s.buffer) (hinbox : t.inbox = s.inbox)
    (hpublishing : t.publishing = s.publishing)
    (hconnections : ∀ conn ∈ t.connections, conn ∈ s.connections ∨
      conn.Sound s ∧ ∀ event ∈ conn.received, event ∈ s.buffer) : t.Sound := by
  refine ⟨?_, ?_, ?_, ?_, ?_⟩
  · rw [hbuffer]
    exact h.distinct
  · rw [hbuffer, hinbox]
    exact h.inbox
  · rw [hbuffer, hpublishing]
    exact h.publishing
  · intro conn hconn
    rw [hbuffer]
    obtain hold | hnew := hconnections conn hconn
    · exact h.received conn hold
    · exact hnew.2
  · intro conn hconn
    obtain hold | hnew := hconnections conn hconn
    · exact (h.connections conn hold).congr hbuffer hinbox hpublishing
    · exact hnew.1.congr hbuffer hinbox hpublishing

theorem sound_connect {request : Request} (h : s.Sound) (ht : connect verify s request = .ok t) :
    t.Sound := by
  rw [connect] at ht
  split at ht
  · cases ht
  · rename_i auth _
    split at ht
    · cases ht
    · cases ht
      refine h.congr rfl rfl rfl fun conn hconn => ?_
      obtain hold | hnew := List.mem_append.mp hconn
      · exact .inl hold
      · rw [List.mem_singleton.mp hnew]
        refine .inr ⟨?_, nofun⟩
        refine sound_of_before (fun _ _ => rfl) ?_ ?_
        · dsimp only
          split
          · exact ready_follows _
          · rfl
        · dsimp only
          split
          · exact ready_missed _
          · rfl

theorem sound_act {l : Label} (hclear : Clear s l) (h : s.Sound) (ht : act verify s l = some t) :
    t.Sound := by
  cases l with
  | connect request =>
    rw [act] at ht
    split at ht
    · rename_i hconnect
      cases ht
      exact sound_connect verify h hconnect
    · cases ht
      exact h
  | handler i outcome =>
    obtain ⟨conn, hi, ht⟩ := Option.bind_eq_some_iff.mp ht
    obtain ⟨q, hq, rfl⟩ := Option.map_eq_some_iff.mp ht
    have hconn := List.mem_of_getElem? hi
    obtain ⟨hsame, hnew⟩ := sound_handler h hconn (hclear conn hi) hq
    have hq₁ : q.1.buffer = s.buffer ∧ q.1.inbox = s.inbox ∧ q.1.publishing = s.publishing ∧
        q.1.connections = s.connections := by
      obtain hsame | hsame := hsame
      · rw [hsame]
        exact ⟨rfl, rfl, rfl, rfl⟩
      · rw [hsame]
        exact ⟨rfl, rfl, rfl, rfl⟩
    refine h.congr hq₁.1 hq₁.2.1 hq₁.2.2.1 fun conn' hconn' => ?_
    rw [State.put, hq₁.2.2.2] at hconn'
    cases hleft : q.2 with
    | none =>
      rw [hleft] at hconn'
      exact .inl (List.mem_of_mem_eraseIdx hconn')
    | some left =>
      rw [hleft] at hconn'
      obtain hold | rfl := List.mem_or_eq_of_mem_set hconn'
      · exact .inl hold
      · exact .inr (hnew _ hleft)
  | xAdd event now random =>
    cases ht
    exact h.xAdd hclear
  | publish i =>
    obtain ⟨event, hi, rfl⟩ := Option.map_eq_some_iff.mp ht
    exact h.publish hi (hclear event hi)
  | publishFailed i =>
    obtain ⟨event, hi, rfl⟩ := Option.map_eq_some_iff.mp ht
    exact h.publishFailed hi (hclear event hi)
  | deliver =>
    rw [act] at ht
    split at ht
    · cases ht
    · rename_i event inbox hinbox
      cases ht
      refine h.deliver hinbox (hclear event ?_)
      rw [hinbox]
      rfl
  | trim n =>
    cases ht
    exact h.congr rfl rfl rfl fun _ hconn => .inl hconn

/-! ## Runs -/

theorem Reach.sound (h : (machine verify).Reach Clear s) : s.Sound := by
  refine h.invariant ?_ fun _ _ _ hclear hstep hs => sound_act verify hclear hs hstep
  rintro s rfl
  exact ⟨List.nodup_nil, nofun, nofun, nofun, nofun⟩

/-- What is behind the id in all of the buffer: what was read of it, and the rest. -/
theorem expected_eq (hdistinct : (buffer.map (·.id)).Nodup) (hof : snapshot.Of lastEventId buffer) :
    conn.expected lastEventId buffer = replay conn lastEventId false snapshot.entries ++
      unread buffer snapshot.upTo conn.isMatch buffer := by
  rw [Connection.expected, hof.behind_eq, List.filter_append, replay_eq,
    unread_self (List.Nodup.of_map _ hdistinct)]

/-- **Exactly once and in order.**  In every run that meets the condition, what a connection has got
of the events behind its `Last-Event-ID` is the beginning of what it is to get; and it is all of
that when the handler is done and nothing is being published or delivered. -/
theorem resumed_once_of_reach (verify : String → Option StreamTokenPayload) {s : State}
    (h : (machine verify).Reach Clear s) {conn : Connection} (hconn : conn ∈ s.connections)
    {lastEventId : String} (hresumes : conn.stage.resumes = some lastEventId) :
    conn.got lastEventId s.buffer <+: conn.expected lastEventId s.buffer ∧
      (conn.stage.isOpen = true → s.Settled →
        conn.got lastEventId s.buffer = conn.expected lastEventId s.buffer) := by
  have hs := Reach.sound verify h
  have hsound := hs.connections conn hconn
  obtain hbefore | ⟨p, hp, rfl⟩ : lastEventId ∈ conn.stage.before ∨
      ∃ p ∈ conn.stage.follows, p.1 = lastEventId := by
    rw [Stage.resumes, hsound.missed] at hresumes
    cases hbefore : conn.stage.before with
    | some id =>
      rw [hbefore] at hresumes
      exact .inl hresumes
    | none =>
      rw [hbefore] at hresumes
      cases hfollows : conn.stage.follows with
      | none =>
        rw [hfollows] at hresumes
        cases hresumes
      | some p =>
        rw [hfollows] at hresumes
        exact .inr ⟨p, rfl, Option.some.inj hresumes⟩
  · -- nothing was read yet
    rw [hsound.before lastEventId hbefore]
    refine ⟨List.nil_prefix, fun hopen => ?_⟩
    cases hstage : conn.stage with
    | subscribing _ | reading _ =>
      rw [hstage] at hopen
      cases hopen
    | writing _ _ | opened _ | failed _ _ _ =>
      rw [hstage] at hbefore
      cases hbefore
  · obtain ⟨hof, live, hlive, hgot⟩ := hsound.follows p hp
    rw [hgot, expected_eq hs.distinct hof]
    cases hopen : conn.stage.isOpen with
    | true =>
      rw [if_pos rfl]
      refine ⟨(List.prefix_append_right_inj _).mpr hlive.got_le, fun _ hsettled => ?_⟩
      rw [hsettled.1, hsettled.2] at hlive
      rw [hlive.got_eq]
    | false =>
      rw [if_neg Bool.false_ne_true, List.nil_append]
      refine ⟨?_, nofun⟩
      rw [hopen, if_neg Bool.false_ne_true, List.nil_append] at hgot
      obtain hnil | hnil := hsound.writing hopen p hp
      · rw [hgot] at hnil
        rw [hnil]
        exact List.nil_prefix
      · rw [hnil, List.nil_append]
        exact hlive.got_le

/-- The token is the address. -/
def verifyAddress (token : String) : Option StreamTokenPayload := some ⟨token, "events:stream"⟩

/-- Alice connects, with the id of the last event that she has got. -/
def alice (lastEventId : Option String) : Label := .connect ⟨some "GALICE", none, lastEventId⟩

/-- An event for Alice is appended. -/
def appended (id : String) : Label := .xAdd ⟨some id, .claimVote, none, [], ["GALICE"], ""⟩ 0 ""

/-- An open connection that has resumed from event 1, when nothing is published or delivered, with
the ids that it is to get and those that it has got. -/
def Ends (expected got : List String) (s : State) : Prop :=
  s.Settled ∧ ∃ conn ∈ s.connections, conn.stage.isOpen = true ∧ conn.stage.resumes = some "1" ∧
    (conn.expected "1" s.buffer).map (·.id) = expected ∧ (conn.got "1" s.buffer).map (·.id) = got

instance (expected got : List String) (s : State) : Decidable (Ends expected got s) :=
  inferInstanceAs (Decidable (_ ∧ _))

theorem resumed_once_followed :
    ∃ s, (machine verifyAddress).Reach Clear s ∧ ∃ conn ∈ s.connections,
      (conn.expected "1" s.buffer).map (·.id) = ["2", "3"] ∧
        conn.got "1" s.buffer = conn.expected "1" s.buffer := by
  obtain ⟨s, h, hsettled, conn, hconn, hopen, hresumes, hexpected, -⟩ :
      ∃ s, (machine verifyAddress).Reach Clear s ∧ Ends ["2", "3"] ["2", "3"] s :=
    Machine.exists_reach_of_runAll
      [alice none, .handler 0 .ok, appended "1", .publish 0, .deliver, appended "2",
        .publish 0, .deliver, alice (some "1"), .handler 1 .ok, .handler 1 .ok, appended "3",
        .publish 0, .deliver]
      (s := .fresh) rfl (by decide)
  exact ⟨s, h, conn, hconn, hexpected,
    (resumed_once_of_reach verifyAddress h hconn hresumes).2 hopen hsettled⟩

/-- An event is delivered before the buffer is read, which has it too; two events are published in
another order than appended; and an event is published before the subscription is active, which
another connection has begun. -/
theorem resumed_doubled_swapped_or_lost :
    (∃ s, (machine verifyAddress).Reach Machine.always s ∧ Ends ["2"] ["2", "2"] s) ∧
      (∃ s, (machine verifyAddress).Reach Machine.always s ∧ Ends ["2", "3"] ["3", "2"] s) ∧
      ∃ s, (machine verifyAddress).Reach Machine.always s ∧ Ends ["2"] [] s := by
  refine ⟨?_, ?_, ?_⟩
  · exact Machine.exists_reach_of_runAll
      [alice none, .handler 0 .ok, appended "1", .publish 0, .deliver, appended "2",
        alice (some "1"), .publish 0, .deliver, .handler 1 .ok, .handler 1 .ok]
      (s := .fresh) rfl (by decide)
  · exact Machine.exists_reach_of_runAll
      [alice none, .handler 0 .ok, appended "1", .publish 0, .deliver, alice (some "1"),
        .handler 1 .ok, .handler 1 .ok, appended "2", appended "3", .publish 1, .publish 0,
        .deliver, .deliver]
      (s := .fresh) rfl (by decide)
  · exact Machine.exists_reach_of_runAll
      [alice none, appended "1", .publish 0, alice (some "1"), .handler 1 .ok, .handler 1 .ok,
        appended "2", .publish 0]
      (s := .fresh) rfl (by decide)

end NiffyInsure.Backend.EventStream
