import Mathlib.Order.Nat
import NiffyInsure.Lib.Concurrent

/-!
# Quotes

`QuoteService.getQuote` looks in Redis, then `simulateGeneratePremium` in a map of the process, and
simulates the contract otherwise; what was simulated gets into the map and into Redis.  When the
simulation fails while the circuit breaker is open, the entry of the map is answered however old it
is, and whatever else goes wrong, the premium is computed with the multipliers that the backend was
compiled with.  `invalidateAll` asks Redis for the keys of the quotes and deletes them.

`ioredis` puts `keyPrefix` in front of the keys that it gets, sets and deletes, but not in front of
the pattern of `KEYS`, and leaves the keys that `KEYS` answers as they are.  A simulation that the
breaker has given up on goes on and stores its result in the map.

Each quote is marked with the multiplier table that it was computed from: the number of its update,
0 for the table of the compiled multipliers.

* `scan_eq_nil`: with a prefix of its own `invalidateAll` deletes nothing.
* `fresh_of_reach`: no call that starts after an `invalidateAll` gets a quote from a table older
  than the one at its start, if there is no prefix (or nothing older in Redis), no older entry of
  the map is young enough, no call in flight has an older quote, and no older entry is answered
  because the breaker is open.
-/

namespace NiffyInsure.Backend.Quotes

/-! ## The data -/

inductive PolicyType where
  | Auto
  | Health
  | Property
  deriving DecidableEq

inductive RegionTier where
  | Low
  | Medium
  | High
  deriving DecidableEq

inductive CoverageTier where
  | Basic
  | Standard
  | Premium
  deriving DecidableEq

structure GeneratePremiumDto where
  policy_type : PolicyType
  region : RegionTier
  coverage_tier : CoverageTier
  age : ℕ
  risk_score : ℕ
  source_account : Option String
  deriving DecidableEq

/-- The arguments of `simulateGeneratePremium`, which are the key in the map. -/
structure Args where
  policyType : PolicyType
  region : RegionTier
  age : ℕ
  riskScore : ℕ
  sourceAccount : String
  deriving DecidableEq

inductive Source where
  | simulation
  | local_fallback
  deriving DecidableEq

structure SimulatePremiumResult where
  premiumStroops : String
  premiumXlm : String
  minResourceFee : String
  source : Source
  deriving DecidableEq

/-- A result, and the table that it was computed from. -/
structure Quote where
  result : SimulatePremiumResult
  table : ℕ
  deriving DecidableEq

/-- An entry of the map. -/
structure Entry where
  quote : Quote
  timestamp : ℕ
  deriving DecidableEq

/-- The code of a `BadRequestException`, or any other error. -/
inductive Error where
  | badRequest (code : String)
  | other
  deriving DecidableEq

/-- What the network answers to a simulation. -/
inductive Answer where
  | success (minResourceFee : Option String)
  | simulationError

/-- The settings, the hash of the cache key, and the premium that the contract computes with its
table after so many updates. -/
structure Config where
  keyPrefix : String
  enabled : Bool
  hash : GeneratePremiumDto → String
  generatePremium : ℕ → Args → Option Int

/-- A simulation that nobody waits for any more. -/
structure Late where
  args : Args
  quote : Option Quote

/-- The number of updates of the table, the time, Redis, the map, the simulations that nobody waits
for, and the newest table at whose start there was an `invalidateAll` that has succeeded. -/
structure State where
  table : ℕ
  now : ℕ
  redis : List (String × Quote)
  quoteCache : List (Args × Entry)
  late : List Late
  floor : ℕ

/-- A call of `getQuote`, with `floor` at its start. -/
structure Job where
  dto : GeneratePremiumDto
  args : Args
  bypass : Bool
  since : ℕ
  deriving DecidableEq

/-- How far a call has come. -/
inductive Call where
  | redisGet (job : Job)
  | lookup (job : Job)
  /-- The entry that the map has had is kept for when the breaker is open. -/
  | simulating (job : Job) (cached : Option Entry)
  | storing (job : Job) (cached : Option Entry) (quote : Quote)
  | redisSet (job : Job) (quote : Quote)
  | returned (since : ℕ) (dto : GeneratePremiumDto) (quote : Quote)
  | threw (error : Error)
  /-- `invalidateAll`, with the table at its start. -/
  | keys (table : ℕ)
  | del (table : ℕ) (keys : List String)
  | invalidated
  deriving DecidableEq

/-- What happens to a call, with whether the breaker is open then. -/
inductive Outcome where
  | ok
  | redisFailed
  | simulated (answer : Answer)
  | failed (error : Error) (opened : Bool)
  | timedOut (opened : Bool)

inductive Request where
  | getQuote (dto : GeneratePremiumDto) (bypassCache : Bool)
  | invalidateAll

inductive Event where
  | tableUpdated
  | tick (ms : ℕ)
  /-- Redis drops an entry. -/
  | expire (key : String)
  | lateSimulated (i : ℕ) (answer : Answer)
  | lateStored (i : ℕ)
  | lateFailed (i : ℕ)

/-! ## Premiums -/

def stroopsToXlm (stroops : Int) : String :=
  toString (stroops.tdiv 10000000) ++ "." ++
    String.ofList ((toString (stroops.tmod 10000000)).toList.leftpad 7 '0')

def typeFactor : PolicyType → ℕ
  | .Auto => 15
  | .Health => 20
  | .Property => 10

def regionFactor : RegionTier → ℕ
  | .Low => 8
  | .Medium => 10
  | .High => 14

def computePremiumLocal (policyType : PolicyType) (region : RegionTier) (age riskScore : ℕ) : ℕ :=
  let ageF := if age < 25 then 15 else if 60 < age then 13 else 10
  10000000 * (typeFactor policyType + regionFactor region + ageF + riskScore) / 10

def localQuote (policyType : PolicyType) (region : RegionTier) (age riskScore : ℕ) : Quote where
  result :=
    { premiumStroops := toString (computePremiumLocal policyType region age riskScore)
      premiumXlm := stroopsToXlm (computePremiumLocal policyType region age riskScore)
      minResourceFee := "0"
      source := .local_fallback }
  table := 0

/-- The quote that `getQuote` falls back to. -/
def GeneratePremiumDto.localQuote (dto : GeneratePremiumDto) : Quote :=
  Quotes.localQuote dto.policy_type dto.region dto.age dto.risk_score

variable (config : Config)

/-- `_simulateGeneratePremium`, with the table of the contract. -/
def Config.simulate (table : ℕ) (args : Args) : Answer → Quote
  | .success minResourceFee =>
    let premiumStroops := (config.generatePremium table args).getD 0
    { result :=
        { premiumStroops := toString premiumStroops
          premiumXlm := stroopsToXlm premiumStroops
          minResourceFee := minResourceFee.getD "0"
          source := .simulation }
      table }
  | .simulationError => localQuote args.policyType args.region args.age args.riskScore

/-! ## The caches -/

/-- What is kept under a key. -/
def lookup {κ : Type} [DecidableEq κ] {β : Type} (key : κ) (entries : List (κ × β)) : Option β :=
  (entries.find? (·.1 = key)).map (·.2)

def insert {κ : Type} [DecidableEq κ] {β : Type} (key : κ) (value : β) (entries : List (κ × β)) :
    List (κ × β) :=
  (key, value) :: entries.filter (·.1 ≠ key)

def KEY_PREFIX : String := "quote:sim:v1:"

def Config.buildRedisKey (dto : GeneratePremiumDto) : String := KEY_PREFIX ++ config.hash dto

/-- The key as Redis has it. -/
def Config.redisKey (dto : GeneratePremiumDto) : String :=
  config.keyPrefix ++ config.buildRedisKey dto

/-- The answer to `KEYS` with the pattern of `invalidateAll`. -/
def scan (redis : List (String × Quote)) : List String :=
  (redis.map (·.1)).filter fun key => KEY_PREFIX.toList <+: key.toList

/-- What `DEL` leaves. -/
def Config.deleted (keys : List String) (redis : List (String × Quote)) : List (String × Quote) :=
  redis.filter fun entry => entry.1 ∉ keys.map (config.keyPrefix ++ ·)

def quoteCacheTtlMs : ℕ := 60000

/-- The entry is young enough to be answered. -/
def State.live (s : State) (entry : Entry) : Bool := s.now - entry.timestamp < quoteCacheTtlMs

def State.store (s : State) (args : Args) (quote : Quote) : State :=
  { s with quoteCache := insert args ⟨quote, s.now⟩ s.quoteCache }

/-! ## The calls -/

/-- `getQuote` stores the result in Redis. -/
def Config.stores (job : Job) (quote : Quote) : Bool :=
  quote.result.source = .simulation && !job.bypass && config.enabled

/-- How `getQuote` goes on with a result of `simulateGeneratePremium`. -/
def Config.after (job : Job) (quote : Quote) : Call :=
  if config.stores job quote then .redisSet job quote else .returned job.since job.dto quote

/-- The errors that `getQuote` passes on. -/
def Error.rethrown : Error → Bool
  | .badRequest code => code = "ACCOUNT_NOT_FOUND" || code = "WRONG_NETWORK"
  | .other => false

/-- The breaker reports a failure. -/
def Config.fail (job : Job) (cached : Option Entry) (error : Error) (opened : Bool) : Call :=
  match cached.filter fun _ => opened with
  | some entry => config.after job entry.quote
  | none =>
    if error.rethrown then .threw error else .returned job.since job.dto job.dto.localQuote

/-- `invalidateAll` has succeeded. -/
def State.complete (s : State) (table : ℕ) (redis : List (String × Quote)) : State :=
  { s with redis := redis, floor := max s.floor table }

def Config.next (s : State) : Call → Outcome → Option (State × Call)
  | .redisGet job, .ok =>
    match lookup (config.redisKey job.dto) s.redis with
    | some quote => some (s, .returned job.since job.dto quote)
    | none => some (s, .lookup job)
  | .redisGet job, .redisFailed => some (s, .lookup job)
  | .lookup job, .ok =>
    match (lookup job.args s.quoteCache).filter s.live with
    | some entry => some (s, config.after job entry.quote)
    | none => some (s, .simulating job (lookup job.args s.quoteCache))
  | .simulating job cached, .simulated answer =>
    some (s, .storing job cached (config.simulate s.table job.args answer))
  | .simulating job cached, .failed error opened => some (s, config.fail job cached error opened)
  | .simulating job cached, .timedOut opened =>
    some ({ s with late := s.late ++ [⟨job.args, none⟩] }, config.fail job cached .other opened)
  | .storing job _ quote, .ok => some (s.store job.args quote, config.after job quote)
  | .storing job cached quote, .timedOut opened =>
    some ({ s with late := s.late ++ [⟨job.args, some quote⟩] },
      config.fail job cached .other opened)
  | .redisSet job quote, .ok =>
    some ({ s with redis := insert (config.redisKey job.dto) quote s.redis },
      .returned job.since job.dto quote)
  | .redisSet job quote, .redisFailed => some (s, .returned job.since job.dto quote)
  | .keys table, .ok =>
    if scan s.redis = [] then some (s.complete table s.redis, .invalidated)
    else some (s, .del table (scan s.redis))
  | .keys _, .redisFailed => some (s, .invalidated)
  | .del table keys, .ok => some (s.complete table (config.deleted keys s.redis), .invalidated)
  | .del _ _, .redisFailed => some (s, .invalidated)
  | _, _ => none

def Config.start (s : State) : Request → Option (State × Call)
  | .getQuote dto bypass =>
    match dto.source_account.filter (· ≠ "") with
    | none => some (s, .returned s.floor dto dto.localQuote)
    | some account =>
      let job : Job := ⟨dto, ⟨dto.policy_type, dto.region, dto.age, dto.risk_score, account⟩,
        bypass, s.floor⟩
      some (s, if bypass ∨ config.enabled = false then .lookup job else .redisGet job)
  | .invalidateAll => some (s, .keys s.table)

def Config.around (s : State) : Event → Option State
  | .tableUpdated => some { s with table := s.table + 1 }
  | .tick ms => some { s with now := s.now + ms }
  | .expire key => some { s with redis := s.redis.filter (·.1 ≠ key) }
  | .lateSimulated i answer =>
    match s.late[i]? with
    | some ⟨args, none⟩ =>
      some { s with late := s.late.set i ⟨args, some (config.simulate s.table args answer)⟩ }
    | _ => none
  | .lateStored i =>
    match s.late[i]? with
    | some ⟨args, some quote⟩ => some { s.store args quote with late := s.late.eraseIdx i }
    | _ => none
  | .lateFailed i => some { s with late := s.late.eraseIdx i }

def Config.program : Concurrent.Program State Call Request Outcome Event where
  start := config.start
  next := config.next
  around := config.around

/-- Nothing was quoted yet. -/
def State.fresh : State := ⟨0, 0, [], [], [], 0⟩

def Config.machine : Machine (Concurrent.State State Call)
    (Concurrent.Label Request Outcome Event) :=
  config.program.machine (· = .fresh)

/-! ## The condition -/

/-- The quote is not from a table older than `bound`.  With `every` this is asked of every quote,
else of those from a simulation. -/
def Quote.Fresh (every : Bool) (bound : ℕ) (quote : Quote) : Prop :=
  (every = true ∨ quote.result.source = .simulation) → bound ≤ quote.table

instance (every : Bool) (bound : ℕ) (quote : Quote) : Decidable (quote.Fresh every bound) :=
  inferInstanceAs (Decidable (_ → _))

/-- The quote that a call has yet to store. -/
def Call.unwritten : Call → Option Quote
  | .storing _ _ quote | .redisSet _ quote => some quote
  | _ => none

/-- Nothing older than `bound` is young enough in the map, or is yet to be stored by a simulation
that was given up. -/
structure State.Clean (every : Bool) (bound : ℕ) (s : State) : Prop where
  quoteCache : ∀ entry ∈ s.quoteCache, s.live entry.2 = true → entry.2.quote.Fresh every bound
  late : ∀ task ∈ s.late, ∀ quote ∈ task.quote, quote.Fresh every bound

instance (every : Bool) (bound : ℕ) (s : State) : Decidable (s.Clean every bound) :=
  decidable_of_iff
    ((∀ entry ∈ s.quoteCache, s.live entry.2 = true → entry.2.quote.Fresh every bound) ∧
      ∀ task ∈ s.late, ∀ quote ∈ task.quote, quote.Fresh every bound)
    ⟨fun h => ⟨h.1, h.2⟩, fun h => ⟨h.1, h.2⟩⟩

/-- An `invalidateAll` from `table` may complete: the keys have no prefix, or there is nothing older
in Redis; nothing older is young enough in the map; and no call has an older quote to store. -/
def Config.MayComplete (every : Bool) (s : Concurrent.State State Call) (table : ℕ) : Prop :=
  (config.keyPrefix = "" ∨ ∀ entry ∈ s.shared.redis, entry.2.Fresh every table) ∧
    s.shared.Clean every table ∧ ∀ p ∈ s.calls, ∀ quote ∈ p.unwritten, quote.Fresh every table

/-- The compiled multipliers may be fallen back to: only simulations count, or none of the
`invalidateAll`s before came after an update of the table. -/
def MayFallBack (every : Bool) (bound : ℕ) : Prop := every = true → bound = 0

instance (every : Bool) (bound : ℕ) : Decidable (MayFallBack every bound) :=
  inferInstanceAs (Decidable (_ → _))

/-- An answer of the network, where the last `invalidateAll` that has succeeded was from `bound`. -/
def Answer.Spared (every : Bool) (bound : ℕ) : Answer → Prop
  | .success _ => True
  | .simulationError => MayFallBack every bound

instance (every : Bool) (bound : ℕ) (answer : Answer) : Decidable (answer.Spared every bound) := by
  unfold Answer.Spared
  split <;> infer_instance

/-- Where `simulateGeneratePremium` has failed: the entry that is answered because the breaker is
open is not older than the call may get (or store); and no fallback is answered after a table
update. -/
def Config.Spared (every : Bool) (s : State) (job : Job) (cached : Option Entry) (error : Error)
    (opened : Bool) : Prop :=
  match cached.filter fun _ => opened with
  | some entry =>
    entry.quote.Fresh every (if config.stores job entry.quote then s.floor else job.since)
  | none => error.rethrown = true ∨ MayFallBack every job.since

instance (every : Bool) (s : State) (job : Job) (cached : Option Entry) (error : Error)
    (opened : Bool) : Decidable (config.Spared every s job cached error opened) := by
  unfold Config.Spared
  split <;> infer_instance

/-- An `invalidateAll` that has got its keys does not mind the quote. -/
def Call.Allows (every : Bool) (quote : Quote) : Call → Prop
  | .del table _ => quote.Fresh every table
  | _ => True

instance (every : Bool) (quote : Quote) (p : Call) : Decidable (p.Allows every quote) := by
  unfold Call.Allows
  split <;> infer_instance

def Config.Undisturbed (every : Bool) (s : Concurrent.State State Call) : Call → Outcome → Prop
  | .simulating _ _, .simulated answer => answer.Spared every s.shared.floor
  | .simulating job cached, .failed error opened =>
    config.Spared every s.shared job cached error opened
  | .simulating job cached, .timedOut opened | .storing job cached _, .timedOut opened =>
    config.Spared every s.shared job cached .other opened
  | .redisSet _ quote, .ok => ∀ p ∈ s.calls, p.Allows every quote
  | .keys table, .ok => scan s.shared.redis = [] → config.MayComplete every s table
  | .del table _, .ok => config.MayComplete every s table
  | _, _ => True

instance (every : Bool) (s : Concurrent.State State Call) (p : Call) (outcome : Outcome) :
    Decidable (config.Undisturbed every s p outcome) := by
  unfold Config.Undisturbed Config.MayComplete
  split <;> infer_instance

/-- No call falls back after a table update, and no call is disturbed. -/
def Config.Clear (every : Bool) (s : Concurrent.State State Call) :
    Concurrent.Label Request Outcome Event → Prop
  | .start (.getQuote dto _) =>
    dto.source_account.filter (· ≠ "") = none → MayFallBack every s.shared.floor
  | .start .invalidateAll => True
  | .next i outcome => ∀ p ∈ s.calls[i]?, config.Undisturbed every s p outcome
  | .around (.lateSimulated _ answer) => answer.Spared every s.shared.floor
  | .around _ => True

instance (every : Bool) (s : Concurrent.State State Call)
    (l : Concurrent.Label Request Outcome Event) : Decidable (config.Clear every s l) := by
  unfold Config.Clear
  split <;> infer_instance

/-! ## What a call has in hand -/

variable {config} {every : Bool} {s : State} {job : Job} {quote : Quote} {bound : ℕ} {p : Call}
  {outcome : Outcome} {q : State × Call}

theorem Quote.Fresh.mono {bound' : ℕ} (h : quote.Fresh every bound) (hle : bound' ≤ bound) :
    quote.Fresh every bound' := fun hq => Nat.le_trans hle (h hq)

theorem Quote.Fresh.max {bound' : ℕ} (h : quote.Fresh every bound) (h' : quote.Fresh every bound') :
    quote.Fresh every (Nat.max bound bound') := fun hq => Nat.max_le.mpr ⟨h hq, h' hq⟩

theorem fresh_localQuote {policyType : PolicyType} {region : RegionTier} {age riskScore : ℕ}
    (h : MayFallBack every bound) :
    (Quotes.localQuote policyType region age riskScore).Fresh every bound := by
  rintro (hevery | hsource)
  · exact (h hevery).le
  · cases hsource

/-- **A simulation is from the table of the contract.** -/
theorem fresh_simulate {table : ℕ} {args : Args} {answer : Answer} (hle : bound ≤ table)
    (h : answer.Spared every bound) : (config.simulate table args answer).Fresh every bound := by
  cases answer with
  | success minResourceFee => exact fun _ => hle
  | simulationError => exact fresh_localQuote h

/-- A call has started before the last `invalidateAll`, what it is going to store is not older than
that, and what it returns is not older than the last one before its start.  What matches the pattern
of an `invalidateAll` and was not among its keys is not older than the table at its start. -/
def Call.Sound (every : Bool) (s : State) : Call → Prop
  | .redisGet job | .lookup job | .simulating job _ => job.since ≤ s.floor
  | .storing job _ quote | .redisSet job quote => job.since ≤ s.floor ∧ quote.Fresh every s.floor
  | .returned since _ quote => quote.Fresh every since
  | .keys table => table ≤ s.table
  | .del table found => table ≤ s.table ∧ ∀ entry ∈ s.redis,
    KEY_PREFIX.toList <+: entry.1.toList → entry.1 ∉ found → entry.2.Fresh every table
  | .threw _ | .invalidated => True

/-- The floor is one of the tables, and nothing older than the floor is to be answered or stored. -/
structure State.Sound (every : Bool) (s : State) : Prop where
  floor : s.floor ≤ s.table
  redis : ∀ entry ∈ s.redis, entry.2.Fresh every s.floor
  clean : s.Clean every s.floor

theorem Call.Sound.mono {t : State} (h : p.Sound every s) (hfloor : t.floor = s.floor)
    (htable : s.table ≤ t.table)
    (hredis : ∀ entry ∈ t.redis, entry ∈ s.redis ∨ p.Allows every entry.2) :
    p.Sound every t := by
  cases p with
  | keys table => exact Nat.le_trans h htable
  | del table keys =>
    refine ⟨Nat.le_trans h.1 htable, fun entry hentry hmatch hkey => ?_⟩
    exact (hredis entry hentry).elim (fun hold => h.2 entry hold hmatch hkey) id
  | returned since dto quote => exact h
  | threw error => trivial
  | invalidated => trivial
  | redisGet job =>
    show job.since ≤ t.floor
    rw [hfloor]
    exact h
  | lookup job =>
    show job.since ≤ t.floor
    rw [hfloor]
    exact h
  | simulating job cached =>
    show job.since ≤ t.floor
    rw [hfloor]
    exact h
  | storing job cached quote =>
    rw [Call.Sound, hfloor]
    exact h
  | redisSet job quote =>
    rw [Call.Sound, hfloor]
    exact h

/-- The floor may rise as long as nothing older is yet to be stored. -/
theorem Call.Sound.raise {redis : List (String × Quote)} (h : p.Sound every s)
    (hredis : ∀ entry ∈ redis, entry ∈ s.redis)
    (hfresh : ∀ quote ∈ p.unwritten, quote.Fresh every bound) :
    p.Sound every (s.complete bound redis) := by
  have hle : s.floor ≤ (s.complete bound redis).floor := Nat.le_max_left _ _
  cases p with
  | keys table => exact h
  | del table keys => exact ⟨h.1, fun entry hentry => h.2 entry (hredis entry hentry)⟩
  | returned since dto quote => exact h
  | threw error => trivial
  | invalidated => trivial
  | redisGet job => exact Nat.le_trans h hle
  | lookup job => exact Nat.le_trans h hle
  | simulating job cached => exact Nat.le_trans h hle
  | storing job cached quote => exact ⟨Nat.le_trans h.1 hle, h.2.max (hfresh quote rfl)⟩
  | redisSet job quote => exact ⟨Nat.le_trans h.1 hle, h.2.max (hfresh quote rfl)⟩

/-! ## One step -/

theorem mem_of_lookup {κ : Type} [DecidableEq κ] {β : Type} {key : κ} {entries : List (κ × β)}
    {value : β} (h : lookup key entries = some value) : (key, value) ∈ entries := by
  obtain ⟨⟨key', value'⟩, hfind, rfl⟩ := Option.map_eq_some_iff.mp h
  have hkey : key' = key := by simpa using List.find?_some hfind
  subst hkey
  exact List.mem_of_find?_eq_some hfind

theorem mem_insert {κ : Type} [DecidableEq κ] {β : Type} {key : κ} {entries : List (κ × β)}
    {value : β}
    {entry : κ × β} (h : entry ∈ insert key value entries) :
    entry = (key, value) ∨ entry ∈ entries := by
  obtain h | h := List.mem_cons.mp h
  · exact .inl h
  · exact .inr (List.mem_filter.mp h).1

theorem after_sound (hsince : job.since ≤ s.floor)
    (h : quote.Fresh every (if config.stores job quote then s.floor else job.since)) :
    (config.after job quote).Sound every s := by
  rw [Config.after]
  split
  · rename_i hstores
    rw [if_pos hstores] at h
    exact ⟨hsince, h⟩
  · rename_i hstores
    rw [if_neg hstores] at h
    exact h

theorem after_sound_of_fresh (hsince : job.since ≤ s.floor) (h : quote.Fresh every s.floor) :
    (config.after job quote).Sound every s := by
  refine after_sound hsince ?_
  split
  · exact h
  · exact h.mono hsince

theorem fail_sound {cached : Option Entry} {error : Error} {opened : Bool}
    (hsince : job.since ≤ s.floor) (h : config.Spared every s job cached error opened) :
    (config.fail job cached error opened).Sound every s := by
  rw [Config.fail]
  rw [Config.Spared] at h
  split at h
  · exact after_sound hsince h
  · split
    · trivial
    · rename_i hthrown
      exact fresh_localQuote (h.resolve_left hthrown)

theorem State.Sound.store {args : Args} (h : s.Sound every) (hq : quote.Fresh every s.floor) :
    (s.store args quote).Sound every := by
  refine ⟨h.floor, h.redis, ?_, h.clean.late⟩
  intro entry hentry hlive
  obtain rfl | hentry := mem_insert hentry
  · exact hq
  · exact h.clean.quoteCache entry hentry hlive

theorem State.Sound.append_late {task : Late} (h : s.Sound every)
    (htask : ∀ quote ∈ task.quote, quote.Fresh every s.floor) :
    State.Sound every { s with late := s.late ++ [task] } := by
  refine ⟨h.floor, h.redis, h.clean.quoteCache, ?_⟩
  intro task' hmem
  obtain hmem | hmem := List.mem_append.mp hmem
  · exact h.clean.late task' hmem
  · rw [List.mem_singleton.mp hmem]
    exact htask

theorem State.Sound.complete {table : ℕ} {redis : List (String × Quote)} (h : s.Sound every)
    (htable : table ≤ s.table) (hredis : ∀ entry ∈ redis, entry ∈ s.redis)
    (hfresh : ∀ entry ∈ redis, entry.2.Fresh every table) (hclean : s.Clean every table) :
    (s.complete table redis).Sound every := by
  refine ⟨Nat.max_le.mpr ⟨h.floor, htable⟩, ?_, ?_, ?_⟩
  · exact fun entry hentry => (h.redis entry (hredis entry hentry)).max (hfresh entry hentry)
  · exact fun entry hentry hlive =>
      (h.clean.quoteCache entry hentry hlive).max (hclean.quoteCache entry hentry hlive)
  · exact fun task htask quote hquote =>
      (h.clean.late task htask quote hquote).max (hclean.late task htask quote hquote)

theorem mem_scan {redis : List (String × Quote)} {entry : String × Quote} (hentry : entry ∈ redis)
    (hmatch : KEY_PREFIX.toList <+: entry.1.toList) : entry.1 ∈ scan redis :=
  List.mem_filter.mpr ⟨List.mem_map_of_mem hentry, decide_eq_true hmatch⟩

theorem prefix_redisKey (hempty : config.keyPrefix = "") (dto : GeneratePremiumDto) :
    KEY_PREFIX.toList <+: (config.redisKey dto).toList := by
  rw [Config.redisKey, hempty, String.empty_append, Config.buildRedisKey, String.toList_append]
  exact List.prefix_append ..

theorem notMem_of_mem_deleted (hempty : config.keyPrefix = "") {keys : List String}
    {redis : List (String × Quote)} {entry : String × Quote}
    (hentry : entry ∈ config.deleted keys redis) : entry.1 ∉ keys := by
  intro hkey
  have hleft := of_decide_eq_true (List.mem_filter.mp hentry).2
  refine hleft (List.mem_map.mpr ⟨entry.1, hkey, ?_⟩)
  rw [hempty, String.empty_append]

theorem sound_of_same {calls : List Call} (hs : q.1.Sound every) (hp : q.2.Sound every q.1)
    (hfloor : q.1.floor = s.floor) (htable : q.1.table = s.table) (hredis : q.1.redis = s.redis) :
    q.1.Sound every ∧ q.2.Sound every q.1 ∧ ∀ p ∈ calls, p.Sound every s → p.Sound every q.1 :=
  ⟨hs, hp, fun _ _ h => h.mono hfloor htable.ge fun _ hentry => .inl (hredis ▸ hentry)⟩

theorem Call.Sound.same {t : State} (h : p.Sound every s) (hfloor : t.floor = s.floor)
    (htable : t.table = s.table) (hredis : t.redis = s.redis) : p.Sound every t :=
  h.mono hfloor htable.ge fun _ hentry => .inl (hredis ▸ hentry)

/-- **An `invalidateAll` completes**, where Redis is left with nothing older. -/
theorem sound_complete {s : Concurrent.State State Call} {table : ℕ}
    {redis : List (String × Quote)} (hs : s.shared.Sound every) (htable : table ≤ s.shared.table)
    (hredis : ∀ entry ∈ redis, entry ∈ s.shared.redis)
    (hleft : config.keyPrefix = "" → ∀ entry ∈ redis, entry.2.Fresh every table)
    (h : config.MayComplete every s table) :
    (s.shared.complete table redis).Sound every ∧ True ∧
      ∀ p ∈ s.calls, p.Sound every s.shared → p.Sound every (s.shared.complete table redis) := by
  obtain ⟨hempty, hclean, hcalls⟩ := h
  have hfresh : ∀ entry ∈ redis, entry.2.Fresh every table :=
    hempty.elim hleft fun hold entry hentry => hold entry (hredis entry hentry)
  exact ⟨hs.complete htable hredis hfresh hclean, trivial,
    fun p hmem hp => hp.raise hredis (hcalls p hmem)⟩

theorem sound_next {s : Concurrent.State State Call}
    (hclear : config.Undisturbed every s p outcome) (hs : s.shared.Sound every)
    (hkeys : ∀ entry ∈ s.shared.redis, ∃ dto, entry.1 = config.redisKey dto)
    (hp : p.Sound every s.shared) (h : config.next s.shared p outcome = some q) :
    q.1.Sound every ∧ q.2.Sound every q.1 ∧
      ∀ p' ∈ s.calls, p'.Sound every s.shared → p'.Sound every q.1 := by
  have hmatch : config.keyPrefix = "" → ∀ entry ∈ s.shared.redis,
      KEY_PREFIX.toList <+: entry.1.toList := by
    intro hempty entry hentry
    obtain ⟨dto, hdto⟩ := hkeys entry hentry
    exact hdto ▸ prefix_redisKey hempty dto
  rw [Config.next.eq_def] at h
  split at h
  · rename_i job
    split at h
    · rename_i quote hget
      cases h
      have hfresh := hs.redis _ (mem_of_lookup hget)
      exact sound_of_same hs (hfresh.mono hp) rfl rfl rfl
    · cases h
      exact sound_of_same hs hp rfl rfl rfl
  · cases h
    exact sound_of_same hs hp rfl rfl rfl
  · rename_i job
    split at h
    · rename_i entry hget
      cases h
      obtain ⟨hget, hlive⟩ := Option.filter_eq_some_iff.mp hget
      have hfresh := hs.clean.quoteCache _ (mem_of_lookup hget) hlive
      exact sound_of_same hs (after_sound_of_fresh hp hfresh) rfl rfl rfl
    · cases h
      exact sound_of_same hs hp rfl rfl rfl
  · cases h
    exact sound_of_same hs ⟨hp, fresh_simulate hs.floor hclear⟩ rfl rfl rfl
  · cases h
    exact sound_of_same hs (fail_sound hp hclear) rfl rfl rfl
  · cases h
    refine sound_of_same (hs.append_late nofun) ?_ rfl rfl rfl
    exact (fail_sound hp hclear).same rfl rfl rfl
  · cases h
    refine sound_of_same (hs.store hp.2) ?_ rfl rfl rfl
    exact (after_sound_of_fresh hp.1 hp.2).same rfl rfl rfl
  · rename_i job cached quote opened
    cases h
    refine sound_of_same (hs.append_late ?_) ?_ rfl rfl rfl
    · rintro quote' ⟨⟩
      exact hp.2
    · exact (fail_sound hp.1 hclear).same rfl rfl rfl
  · -- the quote gets into Redis
    rename_i job quote
    cases h
    refine ⟨⟨hs.floor, ?_, hs.clean.quoteCache, hs.clean.late⟩, hp.2.mono hp.1,
      fun p' hmem hp' => ?_⟩
    · intro entry hentry
      obtain rfl | hentry := mem_insert hentry
      · exact hp.2
      · exact hs.redis entry hentry
    · refine hp'.mono rfl le_rfl fun entry hentry => ?_
      obtain rfl | hentry := mem_insert hentry
      · exact .inr (hclear p' hmem)
      · exact .inl hentry
  · cases h
    exact sound_of_same hs (hp.2.mono hp.1) rfl rfl rfl
  · rename_i table
    split at h
    · -- there is no key
      rename_i hscan
      cases h
      refine sound_complete hs hp (fun _ h => h) (fun hempty entry hentry => ?_) (hclear hscan)
      have hmem := mem_scan hentry (hmatch hempty entry hentry)
      rw [hscan] at hmem
      cases hmem
    · cases h
      refine sound_of_same hs ⟨hp, fun entry hentry hmatch hkey => ?_⟩ rfl rfl rfl
      exact absurd (mem_scan hentry hmatch) hkey
  · cases h
    exact sound_of_same hs trivial rfl rfl rfl
  · rename_i table keys
    cases h
    have hsub : ∀ entry ∈ config.deleted keys s.shared.redis, entry ∈ s.shared.redis :=
      fun _ h => (List.mem_filter.mp h).1
    refine sound_complete hs hp.1 hsub (fun hempty entry hentry => ?_) hclear
    exact hp.2 entry (hsub entry hentry) (hmatch hempty entry (hsub entry hentry))
      (notMem_of_mem_deleted hempty hentry)
  · cases h
    exact sound_of_same hs trivial rfl rfl rfl
  · cases h

theorem start_shared {request : Request} (h : config.start s request = some q) : q.1 = s := by
  cases request with
  | invalidateAll =>
    cases h
    rfl
  | getQuote dto bypass =>
    rw [Config.start] at h
    split at h
    · cases h
      rfl
    · cases h
      rfl

theorem sound_start {s : Concurrent.State State Call} {request : Request}
    (hclear : config.Clear every s (.start request)) (h : config.start s.shared request = some q) :
    q.2.Sound every s.shared := by
  cases request with
  | invalidateAll =>
    cases h
    exact le_rfl
  | getQuote dto bypass =>
    rw [Config.start] at h
    split at h
    · rename_i hnone
      cases h
      exact fresh_localQuote (hclear hnone)
    · cases h
      show Call.Sound every s.shared (if _ then _ else _)
      split
      · exact le_rfl
      · exact le_rfl

theorem sound_around {s : Concurrent.State State Call} {event : Event} {t : State}
    (hclear : config.Clear every s (.around event)) (hs : s.shared.Sound every)
    (h : config.around s.shared event = some t) :
    t.Sound every ∧ t.floor = s.shared.floor ∧ s.shared.table ≤ t.table := by
  cases event with
  | tableUpdated =>
    cases h
    exact ⟨⟨Nat.le_succ_of_le hs.floor, hs.redis, hs.clean.quoteCache, hs.clean.late⟩, rfl,
      Nat.le_succ _⟩
  | tick ms =>
    cases h
    refine ⟨⟨hs.floor, hs.redis, fun entry hentry hlive => ?_, hs.clean.late⟩, rfl, le_rfl⟩
    -- what is young enough now was so before
    refine hs.clean.quoteCache entry hentry (decide_eq_true ?_)
    have hlive := of_decide_eq_true hlive
    dsimp only at hlive
    omega
  | expire key =>
    cases h
    exact ⟨⟨hs.floor, fun entry hentry => hs.redis entry (List.mem_filter.mp hentry).1,
      hs.clean.quoteCache, hs.clean.late⟩, rfl, le_rfl⟩
  | lateSimulated i answer =>
    rw [Config.around] at h
    split at h
    · rename_i args hget
      cases h
      refine ⟨⟨hs.floor, hs.redis, hs.clean.quoteCache, fun task htask => ?_⟩, rfl, le_rfl⟩
      obtain htask | rfl := List.mem_or_eq_of_mem_set htask
      · exact hs.clean.late task htask
      · rintro quote ⟨⟩
        exact fresh_simulate hs.floor hclear
    · cases h
  | lateStored i =>
    rw [Config.around] at h
    split at h
    · rename_i args quote hget
      cases h
      have hfresh := hs.clean.late _ (List.mem_of_getElem? hget) quote rfl
      have hstored : (s.shared.store args quote).Sound every := hs.store hfresh
      exact ⟨⟨hs.floor, hstored.redis, hstored.clean.quoteCache,
        fun task htask => hs.clean.late task (List.mem_of_mem_eraseIdx htask)⟩, rfl, le_rfl⟩
    · cases h
  | lateFailed i =>
    cases h
    exact ⟨⟨hs.floor, hs.redis, hs.clean.quoteCache,
      fun task htask => hs.clean.late task (List.mem_of_mem_eraseIdx htask)⟩, rfl, le_rfl⟩

/-! ## What `invalidateAll` finds -/

/-- A quote gets into Redis under its key only. -/
theorem redis_next (h : config.next s p outcome = some q) {entry : String × Quote}
    (hentry : entry ∈ q.1.redis) : entry ∈ s.redis ∨ ∃ dto, entry.1 = config.redisKey dto := by
  cases p with
  | redisSet job quote =>
    cases outcome with
    | ok =>
      cases h
      obtain rfl | hentry := mem_insert hentry
      · exact .inr ⟨job.dto, rfl⟩
      · exact .inl hentry
    | redisFailed =>
      cases h
      exact .inl hentry
    | simulated | failed | timedOut => cases h
  | del table keys =>
    cases outcome with
    | ok =>
      cases h
      exact .inl (List.mem_filter.mp hentry).1
    | redisFailed =>
      cases h
      exact .inl hentry
    | simulated | failed | timedOut => cases h
  | redisGet | lookup | simulating | storing | keys | returned | threw | invalidated =>
    -- the other steps do not write to Redis
    refine .inl ?_
    rw [Config.next.eq_def] at h
    split at h
    all_goals
      try split at h
      all_goals
        cases h <;> first
          | exact hentry
          | contradiction

theorem redis_around {event : Event} {t : State} (h : config.around s event = some t)
    {entry : String × Quote} (hentry : entry ∈ t.redis) : entry ∈ s.redis := by
  cases event with
  | tableUpdated | tick ms | lateFailed i =>
    cases h
    exact hentry
  | expire key =>
    cases h
    exact (List.mem_filter.mp hentry).1
  | lateSimulated i answer | lateStored i =>
    rw [Config.around] at h
    split at h
    · cases h
      exact hentry
    · cases h

theorem Reach.redis_keys {ok} {s : Concurrent.State State Call} (h : config.machine.Reach ok s) :
    ∀ entry ∈ s.shared.redis, ∃ dto, entry.1 = config.redisKey dto := by
  refine (Concurrent.Reach.sharedInvariant (J := fun _ _ => True)
    (I := fun s => ∀ entry ∈ s.redis, ∃ dto, entry.1 = config.redisKey dto) ?_ ?_ ?_ ?_ h).1
  · rintro shared rfl
    exact nofun
  · intro s request q _ hs hq
    rw [start_shared hq]
    exact ⟨hs, trivial, fun _ _ _ => trivial⟩
  · intro s i outcome p q _ _ hs _ hq
    exact ⟨fun entry hentry => (redis_next hq hentry).elim (hs entry) id, trivial,
      fun _ _ _ => trivial⟩
  · intro s event t _ hs ht
    exact ⟨fun entry hentry => hs entry (redis_around ht hentry), fun _ _ _ => trivial⟩

/-- **`invalidateAll` deletes nothing** if the prefix of the keys begins with another letter than
the pattern, as `niffy:development:` does. -/
theorem scan_eq_nil {ok} {s : Concurrent.State State Call} {c : Char} {rest : List Char}
    (h : config.machine.Reach ok s) (hfirst : config.keyPrefix.toList = c :: rest) (hc : c ≠ 'q') :
    scan s.shared.redis = [] := by
  rw [scan, List.filter_eq_nil_iff]
  intro key hkey hmatch
  obtain ⟨entry, hentry, rfl⟩ := List.mem_map.mp hkey
  obtain ⟨dto, hdto⟩ := Reach.redis_keys h entry hentry
  obtain ⟨tail, htail⟩ := of_decide_eq_true hmatch
  rw [hdto, Config.redisKey, String.toList_append, hfirst] at htail
  exact hc (List.cons.inj htail).1.symm

/-! ## Runs -/

theorem Reach.sound {s : Concurrent.State State Call}
    (h : config.machine.Reach (config.Clear every) s) :
    s.shared.Sound every ∧ ∀ p ∈ s.calls, p.Sound every s.shared := by
  have hsound := Concurrent.Reach.sharedInvariant (J := fun s p => p.Sound every s)
    (I := fun s => s.Sound every ∧ ∀ entry ∈ s.redis, ∃ dto, entry.1 = config.redisKey dto)
    ?_ ?_ ?_ ?_ h
  · exact ⟨hsound.1.1, hsound.2⟩
  · rintro shared rfl
    exact ⟨⟨le_rfl, nofun, nofun, nofun⟩, nofun⟩
  · intro s request q hclear hs hq
    rw [start_shared hq]
    exact ⟨hs, sound_start hclear hq, fun _ _ h => h⟩
  · intro s i outcome p q hclear hget ⟨hs, hkeys⟩ hp hq
    obtain ⟨hs', hp', hothers⟩ := sound_next (hclear p hget) hs hkeys hp hq
    exact ⟨⟨hs', fun entry hentry => (redis_next hq hentry).elim (hkeys entry) id⟩, hp', hothers⟩
  · intro s event t hclear ⟨hs, hkeys⟩ ht
    obtain ⟨hsound, hfloor, htable⟩ := sound_around hclear hs ht
    exact ⟨⟨hsound, fun entry hentry => hkeys entry (redis_around ht hentry)⟩,
      fun p _ hp => hp.mono hfloor htable fun _ hentry => .inl (redis_around ht hentry)⟩

/-- **No stale quote.**  In every run in which no `invalidateAll` completes while something older
than its start is in Redis under a prefix, is young enough in the map, or is yet to be stored, and
none of its keys is set to something older before they are deleted, and no older entry is answered
because the breaker is open, a call gets no simulated quote from a table older than the one at the
start of an `invalidateAll` that has succeeded before the call; and no other quote either, if no
call falls back after a table update. -/
theorem fresh_of_reach (config : Config) (every : Bool) {s : Concurrent.State State Call}
    (h : config.machine.Reach (config.Clear every) s) {since : ℕ} {dto : GeneratePremiumDto}
    {quote : Quote} (hcall : .returned since dto quote ∈ s.calls)
    (hquote : every = true ∨ quote.result.source = .simulation) : since ≤ quote.table :=
  (Reach.sound h).2 _ hcall hquote

/-- A request for the premium of a car, with an account. -/
def carQuote : GeneratePremiumDto := ⟨.Auto, .Low, .Basic, 30, 5, some "GALICE"⟩

/-- A contract whose premium is the number of its table; keys without a prefix. -/
def plain : Config where
  keyPrefix := ""
  enabled := true
  hash _ := "hash"
  generatePremium table _ := some table

/-- A call that simulates. -/
def simulates (i : ℕ) : List (Concurrent.Label Request Outcome Event) :=
  [.start (.getQuote carQuote false), .next i .ok, .next i .ok,
    .next i (.simulated (.success none)), .next i .ok, .next i .ok]

/-- A table update, and the `invalidateAll` after it. -/
def updated (i : ℕ) : List (Concurrent.Label Request Outcome Event) :=
  [.around .tableUpdated, .start .invalidateAll, .next i .ok]

/-- The entry of the map is too old, and that of Redis is deleted. -/
theorem fresh_after_expiry :
    ∃ s quote, plain.machine.Reach (plain.Clear true) s ∧ .returned 1 carQuote quote ∈ s.calls ∧
      1 ≤ quote.table := by
  obtain ⟨s, h, hcall⟩ : ∃ s, plain.machine.Reach (plain.Clear true) s ∧
      .returned 1 carQuote (plain.simulate 1 ⟨.Auto, .Low, 30, 5, "GALICE"⟩ (.success none)) ∈
        s.calls :=
    Machine.exists_reach_of_runAll
      (simulates 0 ++ [.around (.tick 60000)] ++ updated 1 ++ [.next 1 .ok] ++ simulates 2)
      (s := ⟨.fresh, []⟩) ⟨rfl, rfl⟩ (by decide)
  exact ⟨s, _, h, hcall, fresh_of_reach plain true h hcall (.inl rfl)⟩

/-- The call has got a simulated quote from a table older than the one that was invalidated
before. -/
def Call.stale : Call → Bool
  | .returned since _ quote => quote.result.source = .simulation && quote.table < since
  | _ => false

/-- The same with the prefix of the source. -/
def prefixed : Config := { plain with keyPrefix := "niffy:development:" }

/-- A quote in Redis that `invalidateAll` does not find. -/
theorem scan_eq_nil_prefixed : ∃ s, prefixed.machine.Reach Machine.always s ∧
    s.shared.redis.length = 1 ∧ scan s.shared.redis = [] := by
  obtain ⟨s, h, hone⟩ : ∃ s, prefixed.machine.Reach Machine.always s ∧ s.shared.redis.length = 1 :=
    Machine.exists_reach_of_runAll (simulates 0) (s := ⟨.fresh, []⟩) ⟨rfl, rfl⟩ (by decide)
  exact ⟨s, h, hone, scan_eq_nil h rfl (by decide)⟩

/-- The entry of Redis is deleted, but the map still has the quote; or nothing is kept anywhere, but
a call has yet to store what it has simulated; or nothing is deleted. -/
theorem stale_after_invalidation :
    (∃ s, plain.machine.Reach Machine.always s ∧ s.shared.redis = [] ∧
      ∃ p ∈ s.calls, p.stale = true) ∧
      (∃ s t, plain.machine.Reach Machine.always s ∧ plain.machine.Steps Machine.always s t ∧
        (s.shared.redis = [] ∧ s.shared.quoteCache = [] ∧ s.shared.floor = 1) ∧
          ∃ p ∈ t.calls, p.stale = true) ∧
      ∃ s, prefixed.machine.Reach Machine.always s ∧ s.shared.redis.length = 1 ∧
        ∃ p ∈ s.calls, p.stale = true := by
  refine ⟨?_, ?_, ?_⟩
  · exact Machine.exists_reach_of_runAll
      (simulates 0 ++ updated 1 ++ [.next 1 .ok, .start (.getQuote carQuote true), .next 2 .ok])
      (s := ⟨.fresh, []⟩) ⟨rfl, rfl⟩ (by decide)
  · exact Machine.exists_steps_of_runAll ((simulates 0).take 4 ++ updated 1)
      [.next 0 .ok, .next 0 .ok, .start (.getQuote carQuote false), .next 2 .ok]
      (s := ⟨.fresh, []⟩) ⟨rfl, rfl⟩ (by decide)
  · exact Machine.exists_reach_of_runAll
      (simulates 0 ++ updated 1 ++ [.start (.getQuote carQuote false), .next 2 .ok])
      (s := ⟨.fresh, []⟩) ⟨rfl, rfl⟩ (by decide)

end NiffyInsure.Backend.Quotes
