import NiffyInsure.Lib.Concurrent
import NiffyInsure.Frontend.ApiErrors
import Mathlib.Algebra.GroupWithZero.Nat

/-!
# The API client

`apiFetch` (`lib/api/client.ts`) sends a request; a GET is sent again after a transport error or a
server error, and any request after a 401, when the token could be refreshed.  The calls share the
token and the promise of the refresh that is under way.  Before it sends anything, `apiFetch` asks
`buildUrl` for the URL, which reads a property that `env` does not have unless the path is a URL
itself.

* `buildUrl_isSome_iff`: only for an absolute path is there a URL.
* `traced_of_reach`: the refresh handler never runs twice at a time; what is no GET is sent twice at
  most, and the second time after a 401 and a successful refresh.
* `finishes`: all calls end.
* `good_iff`: a call ends with the body of a success or an `ApiError`, after one refresh at most,
  until one is called with a relative path, the second sending after a refresh fails, a body is not
  legible, or there is another 401 after a refresh.
-/

namespace NiffyInsure.Frontend.ApiClient

/-! ## The data -/

def MAX_GET_RETRIES : Nat := 2

structure Options where
  method : Option String
  skipAuth : Bool
  skipRefresh : Bool
  deriving DecidableEq

/-- The arguments of `apiFetch`. -/
structure Request where
  path : String
  options : Options
  deriving DecidableEq

/-- The properties of `env` (`lib/env.ts`) that are strings. -/
structure Env where
  apiBaseUrl : String
  network : String
  contractId : String
  explorerUrl : String

def Env.property (env : Env) : String → Option String
  | "apiBaseUrl" => some env.apiBaseUrl
  | "network" => some env.network
  | "contractId" => some env.contractId
  | "explorerUrl" => some env.explorerUrl
  | _ => none

/-- `/^https?:\/\//.test(path)`. -/
def isAbsolute (path : String) : Bool :=
  "http://".toList.isPrefixOf path.toList || "https://".toList.isPrefixOf path.toList

/-- `base.replace(/\/$/, "")`. -/
def stripSlash (base : String) : String :=
  if base.toList.getLast? = some '/' then String.ofList base.toList.dropLast else base

/-- `none` where it throws, because there is no string to call `replace` of. -/
def buildUrl (env : Env) (path : String) : Option String :=
  if isAbsolute path then some path
  else (env.property "NEXT_PUBLIC_API_BASE_URL").map fun base =>
    stripSlash base ++ if "/".toList.isPrefixOf path.toList then path else "/" ++ path

/-- **There is a URL only for an absolute path**: `env` has no `NEXT_PUBLIC_API_BASE_URL`. -/
theorem buildUrl_isSome_iff (env : Env) (path : String) :
    (buildUrl env path).isSome ↔ isAbsolute path := by
  unfold buildUrl
  split
  · rename_i habsolute
    exact iff_of_true rfl habsolute
  · rename_i hrelative
    exact iff_of_false (by simp [Env.property]) hrelative

/-- `(options.method || "GET").toUpperCase() === "GET"`. -/
def Options.isIdempotentGet (o : Options) : Bool :=
  ((o.method.filter (· ≠ "")).getD "GET").toList.map Char.toUpper = "GET".toList

/-- A promise of `refreshTokenOnce`. -/
inductive Refresh where
  /-- The handler was called, and has not settled. -/
  | running
  | answered (token : Option String)
  | refused
  /-- After `then` and `catch`. -/
  | caught (token : Option String)
  /-- After `finally`: its callers go on. -/
  | resolved (token : Option String)
  deriving DecidableEq

/-- With or without an answer. -/
def Refresh.settled : Option (Option String) → Refresh
  | some token => .answered token
  | none => .refused

/-- The variables of the module, with all promises that there were. -/
structure Client where
  accessToken : Option String
  onUnauthorized : Bool
  refreshPromise : Option Nat
  refreshes : List Refresh
  deriving DecidableEq

/-- What a call has done: requests, with the token in their `Authorization`, and refreshes. -/
inductive Event where
  | sent (authorization : Option String)
  | received (r : Response)
  | refreshing
  | refreshed (token : Option String)
  deriving DecidableEq

inductive Result where
  | returned (body : Option Json)
  | thrown (e : ApiError)
  /-- What is thrown is no `ApiError`. -/
  | escaped
  deriving DecidableEq

/-- Where a call is. -/
inductive Phase where
  | sending (attempt : Nat)
  /-- It waits for a promise, with the 401. -/
  | refreshing (attempt : Nat) (r : Response) (promise : Nat)
  | resending (attempt : Nat)
  | delaying (attempt : Nat)
  | done (result : Result)
  deriving DecidableEq

structure Call where
  options : Options
  log : List Event
  phase : Phase
  deriving DecidableEq

/-- How `fetch` ends, or that a timer or a promise lets the call go on. -/
inductive Outcome where
  | responds (r : Response)
  | aborted
  | failed
  | resumes
  deriving DecidableEq

/-- The application sets the token or the handler; the handler, which returns a promise, settles it,
with an answer or without; the callbacks of a promise run. -/
inductive Around where
  | setAccessToken (token : Option String)
  | setRefreshHandler (registered : Bool)
  | settle (promise : Nat) (answer : Option (Option String))
  | advance (promise : Nat)
  deriving DecidableEq

/-! ## The steps -/

namespace Client

variable (c : Client)

def refreshTokenOnce : Client × Nat :=
  match c.refreshPromise with
  | some promise => (c, promise)
  | none =>
    ({ c with
        refreshPromise := some c.refreshes.length
        refreshes := c.refreshes ++ [if c.onUnauthorized then .running else .answered none] },
      c.refreshes.length)

def settle (promise : Nat) (answer : Option (Option String)) : Option Client :=
  if c.refreshes[promise]? = some .running then
    some { c with refreshes := c.refreshes.set promise (.settled answer) }
  else none

def advance (promise : Nat) : Option Client :=
  match c.refreshes[promise]? with
  | some (.answered token) =>
    some { c with accessToken := token, refreshes := c.refreshes.set promise (.caught token) }
  | some .refused => some { c with refreshes := c.refreshes.set promise (.caught none) }
  | some (.caught token) =>
    some { c with refreshPromise := none, refreshes := c.refreshes.set promise (.resolved token) }
  | _ => none

end Client

/-- `token && !options.skipAuth`. -/
def executeRequest (o : Options) (token : Option String) : Event :=
  .sent (if o.skipAuth then none else token.filter (· ≠ ""))

def timeoutError : ApiError :=
  ⟨.string "timeout", "The request timed out. Please try again.", 408, none⟩

def networkError : ApiError :=
  ⟨.string "network_error", "Network error. Please check your connection.", 0, none⟩

section Steps

variable (env : Env) (inherited : String → Option String)

/-- A transient server error is tried again. -/
def Options.retries (o : Options) (attempt : Nat) (r : Response) : Bool :=
  o.isIdempotentGet && 500 ≤ r.status && attempt < MAX_GET_RETRIES

/-- The 401 is answered by a refresh. -/
def Options.refreshes (o : Options) (c : Client) (r : Response) : Bool :=
  r.status = 401 && !o.skipRefresh && c.onUnauthorized

/-- What is done with a response in the end. -/
def conclude (o : Options) (attempt : Nat) (r : Response) : Phase :=
  if r.ok then .done (r.parseBody.elim .escaped .returned)
  else if o.retries attempt r then .delaying (attempt + 1)
  else .done ((r.parseBody.bind (toApiError inherited r.status)).elim .escaped .thrown)

/-- The next step of a call, with what it adds to the log. -/
def next (c : Client) (o : Options) : Phase → Outcome → Option (Client × List Event × Phase)
  | .sending attempt, .responds r =>
    if o.refreshes c r then
      let (c', promise) := c.refreshTokenOnce
      some (c', [.received r, .refreshing], .refreshing attempt r promise)
    else some (c, [.received r], conclude inherited o attempt r)
  | .sending _, .aborted => some (c, [], .done (.thrown timeoutError))
  | .sending attempt, .failed =>
    if o.isIdempotentGet && attempt < MAX_GET_RETRIES then some (c, [], .delaying (attempt + 1))
    else some (c, [], .done (.thrown networkError))
  | .refreshing attempt r promise, .resumes =>
    match c.refreshes[promise]? with
    | some (.resolved token) =>
      match token.filter (· ≠ "") with
      | some newToken =>
        some (c, [.refreshed token, executeRequest o (some newToken)], .resending attempt)
      | none => some (c, [.refreshed token], conclude inherited o attempt r)
    | _ => none
  | .resending attempt, .responds r => some (c, [.received r], conclude inherited o attempt r)
  -- this sending is not inside the `try`
  | .resending _, .aborted | .resending _, .failed => some (c, [], .done .escaped)
  | .delaying attempt, .resumes => some (c, [executeRequest o c.accessToken], .sending attempt)
  | _, _ => none

def around (c : Client) : Around → Option Client
  | .setAccessToken token => some { c with accessToken := token }
  | .setRefreshHandler registered => some { c with onUnauthorized := registered }
  | .settle promise answer => c.settle promise answer
  | .advance promise => c.advance promise

abbrev State := Concurrent.State Client Call

abbrev Label := Concurrent.Label Request Outcome Around

/-- `apiFetch`, up to the first sending. -/
def apiFetch (c : Client) (request : Request) : Call :=
  match buildUrl env request.path with
  | some _ => ⟨request.options, [executeRequest request.options c.accessToken], .sending 0⟩
  | none => ⟨request.options, [], .done .escaped⟩

def program : Concurrent.Program Client Call Request Outcome Around where
  start c request := some (c, apiFetch env c request)
  next c call outcome := (next inherited c call.options call.phase outcome).map fun q =>
    (q.1, { call with log := call.log ++ q.2.1, phase := q.2.2 })
  around := around

/-- No refresh was begun. -/
def machine : Machine State Label :=
  (program env inherited).machine fun c => c.refreshPromise = none ∧ c.refreshes = []

end Steps

/-! ## One refresh at a time -/

def Refresh.pending : Refresh → Bool
  | .resolved _ => false
  | _ => true

namespace Client

variable {c c' : Client}

/-- The promise that is pending is the one that is kept. -/
structure Single (c : Client) : Prop where
  kept : ∀ i x, c.refreshes[i]? = some x → x.pending → c.refreshPromise = some i
  bound : ∀ i, c.refreshPromise = some i → i < c.refreshes.length

theorem Single.refreshTokenOnce (h : c.Single) :
    c.refreshTokenOnce.1.Single ∧ c.refreshTokenOnce.2 < c.refreshTokenOnce.1.refreshes.length ∧
      c.refreshes.length ≤ c.refreshTokenOnce.1.refreshes.length := by
  unfold Client.refreshTokenOnce
  cases hpromise : c.refreshPromise with
  | some promise => exact ⟨h, h.bound promise hpromise, le_rfl⟩
  | none =>
    refine ⟨⟨fun i x hx hpending => ?_, ?_⟩, by simp, by simp⟩
    · rcases Nat.lt_or_ge i c.refreshes.length with hi | hi
      · rw [List.getElem?_append_left hi] at hx
        cases hpromise.symm.trans (h.kept i x hx hpending)
      · obtain ⟨hlt, -⟩ := List.getElem?_eq_some_iff.mp hx
        rw [List.length_append, List.length_singleton] at hlt
        exact congrArg some (by omega)
    · rintro i ⟨⟩
      simp

/-- A promise that goes on stays the one that is kept. -/
theorem Single.set (h : c.Single) {promise : Nat} {x y : Refresh}
    (hx : c.refreshes[promise]? = some x) (hpending : x.pending) (accessToken : Option String) :
    Single { c with accessToken := accessToken, refreshes := c.refreshes.set promise y } := by
  refine ⟨fun i z hz hzpending => ?_, fun i hi => ?_⟩
  · by_cases hi : promise = i
    · exact hi ▸ h.kept promise x hx hpending
    · rw [List.getElem?_set_ne hi] at hz
      exact h.kept i z hz hzpending
  · rw [List.length_set]
    exact h.bound i hi

theorem Single.resolve (h : c.Single) {promise : Nat} {x : Refresh}
    (hx : c.refreshes[promise]? = some x) (hpending : x.pending) (token : Option String) :
    Single { c with refreshPromise := none,
                    refreshes := c.refreshes.set promise (.resolved token) } := by
  have hkept := h.kept promise x hx hpending
  refine ⟨fun i z hz hzpending => ?_, nofun⟩
  by_cases hi : promise = i
  · subst hi
    obtain ⟨hlt, -⟩ := List.getElem?_eq_some_iff.mp hx
    rw [List.getElem?_set_self hlt] at hz
    cases hz
    cases hzpending
  · rw [List.getElem?_set_ne hi] at hz
    exact absurd (Option.some_inj.mp (hkept.symm.trans (h.kept i z hz hzpending))) hi

theorem Single.settle (h : c.Single) {promise : Nat} {answer : Option (Option String)}
    (hc' : c.settle promise answer = some c') : c'.Single := by
  unfold Client.settle at hc'
  split at hc'
  · rename_i hrunning
    cases hc'
    exact h.set hrunning rfl c.accessToken
  · cases hc'

theorem Single.advance (h : c.Single) {promise : Nat} (hc' : c.advance promise = some c') :
    c'.Single := by
  unfold Client.advance at hc'
  split at hc' <;> cases hc'
  · exact h.set ‹_› rfl _
  · exact h.set ‹_› rfl c.accessToken
  · exact h.resolve ‹_› rfl _

theorem length_settle {promise : Nat} {answer : Option (Option String)}
    (hc' : c.settle promise answer = some c') : c'.refreshes.length = c.refreshes.length := by
  unfold Client.settle at hc'
  split at hc' <;> cases hc'
  exact List.length_set

theorem length_advance {promise : Nat} (hc' : c.advance promise = some c') :
    c'.refreshes.length = c.refreshes.length := by
  unfold Client.advance at hc'
  split at hc' <;> cases hc' <;> exact List.length_set

theorem Single.handlerAlone (h : c.Single) {i j : Nat} (hi : c.refreshes[i]? = some .running)
    (hj : c.refreshes[j]? = some .running) : i = j :=
  Option.some_inj.mp ((h.kept i _ hi rfl).symm.trans (h.kept j _ hj rfl))

end Client

theorem single_around {c c' : Client} {e : Around} (h : c.Single) (hc' : around c e = some c') :
    c'.Single ∧ c'.refreshes.length = c.refreshes.length := by
  cases e with
  | setAccessToken | setRefreshHandler =>
    cases hc'
    exact ⟨⟨h.kept, h.bound⟩, rfl⟩
  | settle promise answer => exact ⟨h.settle hc', Client.length_settle hc'⟩
  | advance promise => exact ⟨h.advance hc', Client.length_advance hc'⟩

/-! ## What a step does -/

section Moves

variable {inherited : String → Option String} {c c' : Client} {o : Options} {p p' : Phase}
  {outcome : Outcome} {events : List Event}

/-- A step of a call, with what it adds to the log. -/
inductive Move (inherited : String → Option String) (c : Client) (o : Options) :
    Phase → Outcome → Client → List Event → Phase → Prop
  | unauthorized {attempt : Nat} {r : Response} (h401 : o.refreshes c r = true) :
      Move inherited c o (.sending attempt) (.responds r) c.refreshTokenOnce.1
        [.received r, .refreshing] (.refreshing attempt r c.refreshTokenOnce.2)
  | concluded {attempt : Nat} {r : Response} (h401 : o.refreshes c r = false) :
      Move inherited c o (.sending attempt) (.responds r) c [.received r]
        (conclude inherited o attempt r)
  | timedOut {attempt : Nat} :
      Move inherited c o (.sending attempt) .aborted c [] (.done (.thrown timeoutError))
  | retried {attempt : Nat} (hget : o.isIdempotentGet = true)
      (hattempt : attempt < MAX_GET_RETRIES) :
      Move inherited c o (.sending attempt) .failed c [] (.delaying (attempt + 1))
  | lost {attempt : Nat} : Move inherited c o (.sending attempt) .failed c []
      (.done (.thrown networkError))
  | resent {attempt : Nat} {r : Response} {promise : Nat} {newToken : String} (hne : newToken ≠ "")
      (hresolved : c.refreshes[promise]? = some (.resolved (some newToken))) :
      Move inherited c o (.refreshing attempt r promise) .resumes c
        [.refreshed (some newToken), executeRequest o (some newToken)] (.resending attempt)
  | refused {attempt : Nat} {r : Response} {promise : Nat} {token : Option String}
      (hnone : token.filter (· ≠ "") = none)
      (hresolved : c.refreshes[promise]? = some (.resolved token)) :
      Move inherited c o (.refreshing attempt r promise) .resumes c [.refreshed token]
        (conclude inherited o attempt r)
  | answered {attempt : Nat} {r : Response} :
      Move inherited c o (.resending attempt) (.responds r) c [.received r]
        (conclude inherited o attempt r)
  | escaped {attempt : Nat} {outcome : Outcome} (hfails : outcome = .aborted ∨ outcome = .failed) :
      Move inherited c o (.resending attempt) outcome c [] (.done .escaped)
  | again {attempt : Nat} :
      Move inherited c o (.delaying attempt) .resumes c [executeRequest o c.accessToken]
        (.sending attempt)

theorem move_of_next (h : next inherited c o p outcome = some (c', events, p')) :
    Move inherited c o p outcome c' events p' := by
  cases p with
  | sending attempt =>
    cases outcome with
    | responds r =>
      simp only [next] at h
      split at h <;> cases h
      · exact .unauthorized ‹_›
      · exact .concluded (Bool.eq_false_iff.mpr ‹_›)
    | aborted =>
      cases h
      exact .timedOut
    | failed =>
      simp only [next] at h
      split at h <;> cases h
      · rename_i hretry
        obtain ⟨hget, hattempt⟩ := Bool.and_eq_true_iff.mp hretry
        exact .retried hget (of_decide_eq_true hattempt)
      · exact .lost
    | resumes => cases h
  | refreshing attempt r promise =>
    cases outcome with
    | resumes =>
      simp only [next] at h
      split at h
      · rename_i token hresolved
        split at h <;> cases h
        · rename_i newToken hnew
          obtain ⟨htoken, hne⟩ := Option.filter_eq_some_iff.mp hnew
          cases htoken
          exact .resent (of_decide_eq_true hne) hresolved
        · exact .refused ‹_› hresolved
      · cases h
    | responds | aborted | failed => cases h
  | resending attempt =>
    cases outcome with
    | responds r =>
      cases h
      exact .answered
    | aborted =>
      cases h
      exact .escaped (.inl rfl)
    | failed =>
      cases h
      exact .escaped (.inr rfl)
    | resumes => cases h
  | delaying attempt =>
    cases outcome with
    | resumes =>
      cases h
      exact .again
    | responds | aborted | failed => cases h
  | done result => cases outcome <;> cases h

/-- The body of a success, another attempt, or an error. -/
theorem conclude_cases (inherited : String → Option String) (o : Options) (attempt : Nat)
    (r : Response) :
    (r.ok ∧ ∃ body, r.parseBody = some body ∧
      conclude inherited o attempt r = .done (.returned body)) ∨
    (o.retries attempt r ∧ conclude inherited o attempt r = .delaying (attempt + 1)) ∨
    (∃ e, conclude inherited o attempt r = .done (.thrown e)) ∨
    conclude inherited o attempt r = .done .escaped := by
  unfold conclude
  split
  · cases r.parseBody with
    | some body => exact .inl ⟨‹_›, body, rfl, rfl⟩
    | none => exact .inr (.inr (.inr rfl))
  · split
    · exact .inr (.inl ⟨‹_›, rfl⟩)
    · cases r.parseBody.bind (toApiError inherited r.status) with
      | some e => exact .inr (.inr (.inl ⟨e, rfl⟩))
      | none => exact .inr (.inr (.inr rfl))

end Moves

/-! ## What is sent -/

section Sent

variable {inherited : String → Option String} {c c' : Client} {o : Options} {p p' : Phase}
  {outcome : Outcome} {log events : List Event}

def Event.isSent : Event → Bool
  | .sent _ => true
  | _ => false

/-- Nothing; or one request; or another one after a 401 and a refresh that gave a token, and no
more. -/
def SentTwiceAtMost (log : List Event) : Prop :=
  log = [] ∨ (∃ a rest, log = .sent a :: rest ∧ ∀ e ∈ rest, ¬ e.isSent) ∨
    ∃ a r token b rest,
      log = .sent a :: .received r :: .refreshing :: .refreshed (some token) :: .sent b :: rest ∧
        r.status = 401 ∧ token ≠ "" ∧ ∀ e ∈ rest, ¬ e.isSent

/-- The same, phase by phase. -/
def Phase.Posted (log : List Event) : Phase → Prop
  | .sending _ => ∃ a, log = [.sent a]
  | .refreshing _ r _ => r.status = 401 ∧ ∃ a, log = [.sent a, .received r, .refreshing]
  | .resending _ => ∃ a r token b, r.status = 401 ∧ token ≠ "" ∧
      log = [.sent a, .received r, .refreshing, .refreshed (some token), .sent b]
  | .delaying _ => False
  | .done _ => SentTwiceAtMost log

theorem Phase.Posted.sentTwiceAtMost (h : p.Posted log) : SentTwiceAtMost log := by
  cases p with
  | sending =>
    obtain ⟨a, rfl⟩ := h
    exact .inr (.inl ⟨a, [], rfl, nofun⟩)
  | refreshing attempt r promise =>
    obtain ⟨-, a, rfl⟩ := h
    exact .inr (.inl ⟨a, _, rfl, by simp [Event.isSent]⟩)
  | resending =>
    obtain ⟨a, r, token, b, h401, hne, rfl⟩ := h
    exact .inr (.inr ⟨a, r, token, b, [], rfl, h401, hne, nofun⟩)
  | delaying => exact h.elim
  | done => exact h

theorem conclude_done (hpost : o.isIdempotentGet = false) (attempt : Nat) (r : Response) :
    ∃ result, conclude inherited o attempt r = .done result := by
  rcases conclude_cases inherited o attempt r with ⟨-, body, -, h⟩ | ⟨hretries, -⟩ | ⟨e, h⟩ | h
  · exact ⟨_, h⟩
  · rw [Options.retries, hpost] at hretries
    cases hretries
  · exact ⟨_, h⟩
  · exact ⟨_, h⟩

theorem posted_of_move (h : Move inherited c o p outcome c' events p')
    (hpost : o.isIdempotentGet = false) (hp : p.Posted log) : p'.Posted (log ++ events) := by
  cases h with
  | unauthorized h401 =>
    obtain ⟨a, rfl⟩ := hp
    simp only [Options.refreshes, Bool.and_eq_true, decide_eq_true_eq] at h401
    exact ⟨h401.1.1, a, rfl⟩
  | @concluded attempt r =>
    obtain ⟨a, rfl⟩ := hp
    obtain ⟨result, hdone⟩ := conclude_done hpost attempt r
    rw [hdone]
    exact .inr (.inl ⟨a, _, rfl, by simp [Event.isSent]⟩)
  | timedOut | lost =>
    obtain ⟨a, rfl⟩ := hp
    exact .inr (.inl ⟨a, [], rfl, nofun⟩)
  | retried hget => cases hpost.symm.trans hget
  | @resent _ r _ newToken hne =>
    obtain ⟨h401, a, rfl⟩ := hp
    exact ⟨a, r, newToken, _, h401, hne, rfl⟩
  | @refused attempt r =>
    obtain ⟨-, a, rfl⟩ := hp
    obtain ⟨result, hdone⟩ := conclude_done hpost attempt r
    rw [hdone]
    exact .inr (.inl ⟨a, _, rfl, by simp [Event.isSent]⟩)
  | @answered attempt r =>
    obtain ⟨a, r₁, token, b, h401, hne, rfl⟩ := hp
    obtain ⟨result, hdone⟩ := conclude_done hpost attempt r
    rw [hdone]
    exact .inr (.inr ⟨a, r₁, token, b, _, rfl, h401, hne, by simp [Event.isSent]⟩)
  | escaped =>
    obtain ⟨a, r, token, b, h401, hne, rfl⟩ := hp
    exact .inr (.inr ⟨a, r, token, b, [], rfl, h401, hne, nofun⟩)
  | again => exact hp.elim

/-- What is returned is the body of a success that was received. -/
def Phase.Answered (log : List Event) : Phase → Prop
  | .refreshing _ r _ => .received r ∈ log
  | .done (.returned body) => ∃ r, .received r ∈ log ∧ r.ok ∧ r.parseBody = some body
  | _ => True

theorem answered_conclude {attempt : Nat} {r : Response} (hr : .received r ∈ log) :
    (conclude inherited o attempt r).Answered log := by
  rcases conclude_cases inherited o attempt r with ⟨hok, body, hbody, h⟩ | ⟨-, h⟩ | ⟨e, h⟩ | h <;>
    rw [h]
  · exact ⟨r, hr, hok, hbody⟩
  all_goals trivial

theorem answered_of_move (h : Move inherited c o p outcome c' events p') (hp : p.Answered log) :
    p'.Answered (log ++ events) := by
  cases h with
  | unauthorized => exact List.mem_append_right _ List.mem_cons_self
  | concluded | answered => exact answered_conclude (List.mem_append_right _ List.mem_cons_self)
  | refused => exact answered_conclude (List.mem_append_left _ hp)
  | timedOut | retried | lost | resent | escaped | again => trivial

end Sent

/-! ## All runs -/

section Runs

variable {env : Env} {inherited : String → Option String}

/-- What holds of a call at any time. -/
structure Call.Traced (c : Client) (call : Call) : Prop where
  waits : ∀ attempt r promise, call.phase = .refreshing attempt r promise →
    promise < c.refreshes.length
  posted : call.options.isIdempotentGet = false → call.phase.Posted call.log
  answered : call.phase.Answered call.log

theorem Call.Traced.mono {c c' : Client} {call : Call} (h : call.Traced c)
    (hlength : c.refreshes.length ≤ c'.refreshes.length) : call.Traced c' :=
  ⟨fun attempt r promise hphase => (h.waits attempt r promise hphase).trans_le hlength, h.posted,
    h.answered⟩

theorem single_of_move {c c' : Client} {o : Options} {p p' : Phase} {outcome : Outcome}
    {events : List Event} (h : Move inherited c o p outcome c' events p') (hc : c.Single) :
    c'.Single ∧ c.refreshes.length ≤ c'.refreshes.length ∧
      ∀ attempt r promise, p' = .refreshing attempt r promise → promise < c'.refreshes.length := by
  cases h with
  | unauthorized =>
    obtain ⟨hsingle, hlt, hle⟩ := hc.refreshTokenOnce
    refine ⟨hsingle, hle, ?_⟩
    rintro _ _ _ ⟨⟩
    exact hlt
  | @concluded attempt r | @refused attempt r | @answered attempt r =>
    refine ⟨hc, le_rfl, fun _ _ _ hphase => ?_⟩
    rcases conclude_cases inherited o attempt r with ⟨-, _, -, h⟩ | ⟨-, h⟩ | ⟨_, h⟩ | h <;>
      cases h.symm.trans hphase
  | timedOut | retried | lost | resent | escaped | again => exact ⟨hc, le_rfl, nofun⟩

theorem traced_apiFetch (c : Client) (request : Request) : (apiFetch env c request).Traced c := by
  unfold apiFetch
  split
  · exact ⟨nofun, fun _ => ⟨_, rfl⟩, trivial⟩
  · exact ⟨nofun, fun _ => .inl rfl, trivial⟩

/-- **In every run** one promise is pending at most, and all calls are traced. -/
theorem traced_of_reach {ok : State → Label → Prop} {s : State}
    (h : (machine env inherited).Reach ok s) :
    s.shared.Single ∧ ∀ call ∈ s.calls, call.Traced s.shared := by
  refine Concurrent.Reach.sharedInvariant (I := Client.Single) (J := fun c call => call.Traced c)
    ?_ ?_ ?_ ?_ h
  · rintro c ⟨hpromise, hrefreshes⟩
    exact ⟨by simp [hrefreshes], by simp [hpromise]⟩
  · intro s request q _ hsingle hq
    cases hq
    exact ⟨hsingle, traced_apiFetch _ request, fun _ _ hcall => hcall⟩
  · intro s i outcome call q _ _ hsingle hcall hq
    obtain ⟨⟨c', events, p'⟩, hnext, rfl⟩ := Option.map_eq_some_iff.mp hq
    have hmove := move_of_next hnext
    obtain ⟨hsingle', hlength, hwaits⟩ := single_of_move hmove hsingle
    exact ⟨hsingle', ⟨hwaits, fun hpost => posted_of_move hmove hpost (hcall.posted hpost),
      answered_of_move hmove hcall.answered⟩, fun _ _ hcall => hcall.mono hlength⟩
  · intro s e c' _ hsingle hc'
    obtain ⟨hsingle', hlength⟩ := single_around hsingle hc'
    exact ⟨hsingle', fun _ _ hcall => hcall.mono hlength.ge⟩

end Runs

/-! ## When a call is disciplined -/

section Discipline

variable (inherited : String → Option String)

/-- It has thrown nothing but an `ApiError`, and has turned to one refresh at most. -/
def Call.Good (call : Call) : Prop := call.phase ≠ .done .escaped ∧ call.log.count .refreshing ≤ 1

def Good (s : State) : Prop := ∀ call ∈ s.calls, call.Good

/-- A response that is not tried again can be read, and its error be expressed. -/
def Legible (o : Options) (attempt : Nat) (r : Response) : Prop :=
  if r.ok then r.parseBody.isSome = true
  else o.retries attempt r ∨
    ∃ body, r.parseBody = some body ∧ Expressible inherited r.status (parseErrorEnvelope body)

/-- The condition on a step of a call: no 401 after a refresh, no response that is not legible in
the end, and no failure of the second sending. -/
def Call.Disciplined (c : Client) (call : Call) (outcome : Outcome) : Prop :=
  match call.phase, outcome with
  | .sending attempt, .responds r =>
    if call.options.refreshes c r then .refreshing ∉ call.log
    else Legible inherited call.options attempt r
  | .refreshing attempt r promise, .resumes =>
    ∀ token, c.refreshes[promise]? = some (.resolved token) → token.filter (· ≠ "") = none →
      Legible inherited call.options attempt r
  | .resending attempt, .responds r => Legible inherited call.options attempt r
  | .resending _, _ => False
  | _, _ => True

/-- A call starts with an absolute path, or a step of one meets the condition. -/
def Disciplined (s : State) : Label → Prop
  | .start request => isAbsolute request.path = true
  | .next i outcome => ∀ call ∈ s.calls[i]?, call.Disciplined inherited s.shared outcome
  | .around _ => True

variable {env : Env} {inherited} {c c' : Client} {o : Options} {p p' : Phase} {outcome : Outcome}
  {log events : List Event}

theorem good_apiFetch_iff (c : Client) (request : Request) :
    (apiFetch env c request).Good ↔ isAbsolute request.path := by
  rw [← buildUrl_isSome_iff env, apiFetch]
  cases buildUrl env request.path with
  | some url => exact iff_of_true ⟨nofun, by simp [executeRequest]⟩ rfl
  | none => exact iff_of_false (fun hgood => hgood.1 rfl) nofun

theorem conclude_ne_escaped_iff (o : Options) (attempt : Nat) (r : Response) :
    conclude inherited o attempt r ≠ .done .escaped ↔ Legible inherited o attempt r := by
  unfold conclude Legible
  split
  · cases r.parseBody <;> simp
  · split
    · simp_all
    · cases r.parseBody with
      | none => simp_all
      | some body =>
        have hexpressed := toApiError_isSome_iff inherited r.status body
        rw [Option.bind_some]
        cases herror : toApiError inherited r.status body <;> simp_all

/-- **When a step of a call is disciplined.** -/
theorem good_iff_of_move (h : Move inherited c o p outcome c' events p')
    (hgood : Call.Good ⟨o, log, p⟩) :
    Call.Good ⟨o, log ++ events, p'⟩ ↔ Call.Disciplined inherited c ⟨o, log, p⟩ outcome := by
  have hnone : ∀ events : List Event, .refreshing ∉ events →
      (log ++ events).count .refreshing ≤ 1 := fun events hevents => by
    rw [List.count_append, List.count_eq_zero_of_not_mem hevents]
    exact hgood.2
  have hconclude : ∀ attempt r, ∀ events : List Event, .refreshing ∉ events →
      (Call.Good ⟨o, log ++ events, conclude inherited o attempt r⟩ ↔
        Legible inherited o attempt r) :=
    fun attempt r events hevents =>
      (and_iff_left (hnone events hevents)).trans (conclude_ne_escaped_iff o attempt r)
  cases h with
  | @unauthorized attempt r h401 =>
    have hcount : (log ++ [Event.received r, .refreshing]).count .refreshing =
        log.count .refreshing + 1 := by
      rw [List.count_append]
      rfl
    have hdisciplined : Call.Disciplined inherited c ⟨o, log, .sending attempt⟩ (.responds r) ↔
        .refreshing ∉ log := iff_of_eq (if_pos h401)
    rw [hdisciplined, ← List.count_eq_zero]
    refine ⟨fun hgood' => ?_, fun hzero => ⟨nofun, ?_⟩⟩
    · have hle := hcount.symm.trans_le hgood'.2
      omega
    · exact hcount.trans_le (by omega)
  | @concluded attempt r h401 =>
    have hdisciplined : Call.Disciplined inherited c ⟨o, log, .sending attempt⟩ (.responds r) ↔
        Legible inherited o attempt r := iff_of_eq (if_neg (Bool.eq_false_iff.mp h401))
    exact (hconclude attempt r _ (by simp)).trans hdisciplined.symm
  | timedOut | retried | lost | again =>
    exact iff_of_true ⟨nofun, hnone _ (by simp [executeRequest])⟩ trivial
  | @resent attempt r promise newToken hne hresolved =>
    refine iff_of_true ⟨nofun, hnone _ (by simp [executeRequest])⟩ fun token htoken hnot => ?_
    cases hresolved.symm.trans htoken
    simp [Option.filter, hne] at hnot
  | @refused attempt r promise token hfalsy hresolved =>
    refine (hconclude attempt r _ (by simp)).trans ⟨fun hlegible _ _ _ => hlegible, fun h => ?_⟩
    exact h token hresolved hfalsy
  | @answered attempt r => exact hconclude attempt r _ (by simp)
  | escaped hfails =>
    refine iff_of_false (fun hgood' => hgood'.1 rfl) ?_
    rcases hfails with rfl | rfl <;> exact id

/-- **When a step is disciplined.**  After a step that is not, a call has thrown something else, or
has turned to a second refresh. -/
theorem good_iff {s t : State} {l : Label} (hgood : Good s)
    (hstep : (machine env inherited).step s l t) : Good t ↔ Disciplined inherited s l := by
  rcases Concurrent.step_cases hstep with ⟨request, q, rfl, hq, rfl⟩ |
    ⟨i, outcome, call, q, rfl, hcall, hq, rfl⟩ | ⟨e, c', rfl, hc', rfl⟩
  · cases hq
    have hiff : (apiFetch env s.shared request).Good ↔ isAbsolute request.path :=
      good_apiFetch_iff s.shared request
    refine ⟨fun h => hiff.mp (h _ (List.mem_append_right _ (List.mem_singleton_self _))),
      fun habsolute call hcall => ?_⟩
    rcases List.mem_append.mp hcall with hold | hnew
    · exact hgood call hold
    · obtain rfl := List.mem_singleton.mp hnew
      exact hiff.mpr habsolute
  · obtain ⟨⟨c', events, p'⟩, hnext, rfl⟩ := Option.map_eq_some_iff.mp hq
    have hiff := good_iff_of_move (move_of_next hnext) (hgood call (List.mem_of_getElem? hcall))
    have hdisciplined : Disciplined inherited s (.next i outcome) ↔
        call.Disciplined inherited s.shared outcome := by
      show (∀ call' ∈ s.calls[i]?, _) ↔ _
      rw [hcall]
      exact ⟨fun h => h call rfl, fun h _ hcall => Option.some_inj.mp hcall ▸ h⟩
    rw [hdisciplined, ← hiff]
    obtain ⟨hi, -⟩ := List.getElem?_eq_some_iff.mp hcall
    refine ⟨fun h => h _ (List.mem_set hi _), fun h call' hcall' => ?_⟩
    rcases List.mem_or_eq_of_mem_set hcall' with hold | rfl
    · exact hgood call' hold
    · exact h
  · exact iff_of_true hgood trivial

theorem good_of_reach {s : State} (h : (machine env inherited).Reach (Disciplined inherited) s) :
    Good s :=
  h.invariant (fun s hinit call hcall => by rw [hinit.2] at hcall; cases hcall)
    fun _ _ _ hl hstep hgood => (good_iff hgood hstep).mpr hl

end Discipline

/-! ## All calls end -/

section Finish

variable {env : Env} {inherited : String → Option String} {c c' : Client} {o : Options}
  {p p' : Phase} {outcome : Outcome} {events : List Event}

/-- How many steps a call has left at most. -/
def Phase.left : Phase → Nat
  | .sending attempt => 4 * (MAX_GET_RETRIES - attempt) + 3
  | .refreshing attempt _ _ => 4 * (MAX_GET_RETRIES - attempt) + 2
  | .resending attempt => 4 * (MAX_GET_RETRIES - attempt) + 1
  | .delaying attempt => 4 * (MAX_GET_RETRIES - attempt) + 4
  | .done _ => 0

def Refresh.left : Refresh → Nat
  | .running => 3
  | .answered _ | .refused => 2
  | .caught _ => 1
  | .resolved _ => 0

/-- A step of a call may begin a refresh, which has three steps. -/
def work (s : State) : Nat :=
  4 * (s.calls.map (·.phase.left)).sum + (s.shared.refreshes.map Refresh.left).sum

/-- A call or a refresh goes on. -/
def Goes : Label → Prop
  | .next _ _ | .around (.settle _ _) | .around (.advance _) => True
  | .start _ | .around (.setAccessToken _) | .around (.setRefreshHandler _) => False

theorem left_conclude (o : Options) (attempt : Nat) (r : Response) :
    (conclude inherited o attempt r).left ≤ 4 * (MAX_GET_RETRIES - attempt) := by
  rcases conclude_cases inherited o attempt r with ⟨-, _, -, h⟩ | ⟨hretries, h⟩ | ⟨_, h⟩ | h <;>
    rw [h]
  · exact Nat.zero_le _
  · simp only [Options.retries, Bool.and_eq_true, decide_eq_true_eq] at hretries
    simp only [Phase.left]
    omega
  · exact Nat.zero_le _
  · exact Nat.zero_le _

theorem left_lt_of_move (h : Move inherited c o p outcome c' events p') : p'.left < p.left := by
  cases h with
  | unauthorized | resent => exact Nat.lt_succ_self _
  | @concluded attempt r | @refused attempt r | @answered attempt r =>
    exact Nat.lt_of_le_of_lt (left_conclude o attempt r) (Nat.lt_add_of_pos_right (by decide))
  | timedOut | lost | escaped => exact Nat.succ_pos _
  | retried _ hattempt =>
    simp only [Phase.left]
    omega
  | again => exact Nat.lt_succ_self _

theorem sum_left_refreshTokenOnce (c : Client) :
    (c.refreshTokenOnce.1.refreshes.map Refresh.left).sum ≤
      (c.refreshes.map Refresh.left).sum + 3 := by
  unfold Client.refreshTokenOnce
  split
  · exact Nat.le_add_right _ _
  · rw [List.map_append, List.sum_append]
    split <;> simp [Refresh.left]

theorem sum_left_of_move (h : Move inherited c o p outcome c' events p') :
    (c'.refreshes.map Refresh.left).sum ≤ (c.refreshes.map Refresh.left).sum + 3 := by
  cases h with
  | unauthorized => exact sum_left_refreshTokenOnce c
  | _ => exact Nat.le_add_right _ _

theorem sum_left_set {promise : Nat} {x y : Refresh} (hx : c.refreshes[promise]? = some x)
    (hlt : y.left < x.left) :
    ((c.refreshes.set promise y).map Refresh.left).sum < (c.refreshes.map Refresh.left).sum := by
  have hsum := Concurrent.sum_map_set Refresh.left hx y
  omega

theorem sum_left_settle {promise : Nat} {answer : Option (Option String)}
    (h : c.settle promise answer = some c') :
    (c'.refreshes.map Refresh.left).sum < (c.refreshes.map Refresh.left).sum := by
  unfold Client.settle at h
  split at h <;> cases h
  cases answer <;> exact sum_left_set ‹_› (Nat.lt_succ_self _)

theorem sum_left_advance {promise : Nat} (h : c.advance promise = some c') :
    (c'.refreshes.map Refresh.left).sum < (c.refreshes.map Refresh.left).sum := by
  unfold Client.advance at h
  split at h <;> cases h <;> exact sum_left_set ‹_› (Nat.lt_succ_self _)

theorem work_lt {s t : State} {l : Label} (hgoes : Goes l)
    (hstep : (machine env inherited).step s l t) : work t < work s := by
  rcases Concurrent.step_cases hstep with ⟨o, q, rfl, -, -⟩ | ⟨i, outcome, call, q, rfl,
    hcall, hq, rfl⟩ | ⟨e, c', rfl, hc', rfl⟩
  · exact hgoes.elim
  · obtain ⟨⟨c', events, p'⟩, hnext, rfl⟩ := Option.map_eq_some_iff.mp hq
    have hmove := move_of_next hnext
    have hleft := left_lt_of_move hmove
    have hrefreshes := sum_left_of_move hmove
    have hcalls := Concurrent.sum_map_set (·.phase.left) hcall
      { call with log := call.log ++ events, phase := p' }
    simp only [work, Concurrent.State.put] at *
    omega
  · cases e with
    | settle promise answer => exact Nat.add_lt_add_left (sum_left_settle hc') _
    | advance promise => exact Nat.add_lt_add_left (sum_left_advance hc') _
    | _ => exact hgoes.elim

/-- What can happen when the network and the handler are given: it is theirs how a `fetch` ends and
what a refresh answers. -/
def Offered (network : Nat → Outcome) (handler : Nat → Option (Option String)) : Label → Prop
  | .next i outcome => outcome = network i ∨ outcome = .resumes
  | .around (.settle promise answer) => answer = handler promise
  | .around (.advance _) => True
  | .start _ | .around (.setAccessToken _) | .around (.setRefreshHandler _) => False

/-- Whatever the network does, a call that waits for it goes on. -/
theorem isSome_next_sending (attempt : Nat) (houtcome : outcome ≠ .resumes) :
    (next inherited c o (.sending attempt) outcome).isSome := by
  cases outcome with
  | responds r =>
    rw [next]
    split <;> rfl
  | aborted => rfl
  | failed =>
    rw [next]
    split <;> rfl
  | resumes => exact absurd rfl houtcome

theorem isSome_next_resending (attempt : Nat) (houtcome : outcome ≠ .resumes) :
    (next inherited c o (.resending attempt) outcome).isSome := by
  cases outcome with
  | responds | aborted | failed => rfl
  | resumes => exact absurd rfl houtcome

theorem isSome_next_refreshing {attempt : Nat} {r : Response} {promise : Nat}
    {token : Option String} (hresolved : c.refreshes[promise]? = some (.resolved token)) :
    (next inherited c o (.refreshing attempt r promise) .resumes).isSome := by
  simp only [next, hresolved]
  split <;> rfl

theorem exists_advance {promise : Nat} {x : Refresh} (hx : c.refreshes[promise]? = some x) :
    (∀ answer, (c.settle promise answer).isSome) ∨ (c.advance promise).isSome ∨
      ∃ token, x = .resolved token := by
  cases x with
  | running =>
    refine .inl fun answer => ?_
    rw [Client.settle, if_pos hx]
    rfl
  | answered | refused | caught =>
    refine .inr (.inl ?_)
    rw [Client.advance, hx]
    rfl
  | resolved token => exact .inr (.inr ⟨token, rfl⟩)

/-- **A call that is not over goes on**, or the refresh that it waits for does. -/
theorem done_of_halted {network : Nat → Outcome} {handler : Nat → Option (Option String)}
    (hnetwork : ∀ i, network i ≠ .resumes) {s : State}
    (h : (machine env inherited).Reach Machine.always s)
    (hhalted : ∀ l t, Offered network handler l → ¬ (machine env inherited).step s l t)
    {call : Call} (hcall : call ∈ s.calls) : ∃ result, call.phase = .done result := by
  have htraced := (traced_of_reach h).2 call hcall
  obtain ⟨i, hi⟩ := List.getElem?_of_mem hcall
  have hnext : ∀ outcome, outcome = network i ∨ outcome = .resumes →
      ¬ (next inherited s.shared call.options call.phase outcome).isSome := by
    intro outcome hoffered hsome
    have hgoesOn : ((program env inherited).next s.shared call outcome).isSome = true :=
      Option.isSome_map.trans hsome
    obtain ⟨t, ht⟩ := Concurrent.exists_step hi hgoesOn
    exact hhalted (.next i outcome) t hoffered ht
  have haround : ∀ e, Offered network handler (.around e) → ¬ (around s.shared e).isSome := by
    intro e hoffered hsome
    obtain ⟨c', hc'⟩ := Option.isSome_iff_exists.mp hsome
    exact hhalted (.around e) { s with shared := c' } hoffered (congrArg (Option.map _) hc')
  cases hphase : call.phase with
  | done result => exact ⟨result, rfl⟩
  | delaying attempt => exact absurd (hphase ▸ rfl) (hnext .resumes (.inr rfl))
  | sending attempt =>
    exact absurd (hphase ▸ isSome_next_sending attempt (hnetwork i)) (hnext _ (.inl rfl))
  | resending attempt =>
    exact absurd (hphase ▸ isSome_next_resending attempt (hnetwork i)) (hnext _ (.inl rfl))
  | refreshing attempt r promise =>
    have hx := List.getElem?_eq_getElem (htraced.waits attempt r promise hphase)
    rcases exists_advance hx with hsettle | hadvance | ⟨token, htoken⟩
    · exact absurd (hsettle (handler promise)) (haround (.settle promise (handler promise)) rfl)
    · exact absurd hadvance (haround (.advance promise) trivial)
    · rw [htoken] at hx
      exact absurd (hphase ▸ isSome_next_refreshing hx) (hnext .resumes (.inr rfl))

/-- A call has fewer steps left after each, and so have all calls together with the refreshes; and
where none of them can go on, however a `fetch` ends and the handler answers, all calls are over. -/
def Finishes (env : Env) (inherited : String → Option String) : Prop :=
  (∀ s i outcome t call, (machine env inherited).step s (.next i outcome) t →
    s.calls[i]? = some call →
    ∃ call', t.calls[i]? = some call' ∧ call'.phase.left < call.phase.left) ∧
  (∀ s l t, Goes l → (machine env inherited).step s l t → work t < work s) ∧
  ∀ network handler, (∀ i, network i ≠ Outcome.resumes) →
    ∀ s, (machine env inherited).Reach Machine.always s →
      (∀ l t, Offered network handler l → ¬ (machine env inherited).step s l t) →
        ∀ call ∈ s.calls, ∃ result, call.phase = .done result

/-- **All calls end.** -/
theorem finishes (env : Env) (inherited : String → Option String) : Finishes env inherited := by
  refine ⟨fun s i outcome t call hstep hcall => ?_, fun _ _ _ => work_lt,
    fun _ _ hnetwork _ h hhalted _ hcall => done_of_halted hnetwork h hhalted hcall⟩
  obtain ⟨q, hq, -, hcall'⟩ := Concurrent.next_of_step hcall hstep
  obtain ⟨⟨c', events, p'⟩, hnext, rfl⟩ := Option.map_eq_some_iff.mp hq
  exact ⟨_, hcall', left_lt_of_move (move_of_next hnext)⟩

end Finish

/-! ## The discipline of requests -/

/-- The handler does not run twice at a time. -/
def HandlerAlone (s : State) : Prop :=
  ∀ i j : Nat, s.shared.refreshes[i]? = some .running →
    s.shared.refreshes[j]? = some .running → i = j

/-- What is no GET is sent twice at most, and what is returned is the body of a success. -/
def Call.Kept (call : Call) : Prop :=
  (call.options.isIdempotentGet = false → SentTwiceAtMost call.log) ∧
    ∀ body, call.phase = .done (.returned body) →
      ∃ r, .received r ∈ call.log ∧ r.ok ∧ r.parseBody = some body

/-- A response of the server with an empty body. -/
def response (status : Nat) : Response := ⟨status, none, none, some ""⟩

def localEnv : Env := ⟨"http://localhost/api", "testnet", "CDEMO", "https://stellar.expert"⟩

/-- A call with an absolute path. -/
def absolute (method : Option String) : Label :=
  .start ⟨"http://localhost/api/items", method, false, false⟩

/-- The call is answered with a 401, and its refresh gives a token. -/
def refreshed : List Label :=
  [.next 0 (.responds (response 401)), .around (.settle 0 (some (some "fresh"))),
    .around (.advance 0), .around (.advance 0), .next 0 .resumes]

end NiffyInsure.Frontend.ApiClient
