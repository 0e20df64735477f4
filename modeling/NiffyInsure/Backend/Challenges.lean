import NiffyInsure.Lib.CheckThenAct
import NiffyInsure.Lib.Expiring
import NiffyInsure.Lib.JsString

/-!
# Login challenges

A challenge is stored under its nonce for some minutes; `verifyChallenge` reads it, deletes it with
a second command, and lets the request pass if it has the right key and signature.
`WalletAuthService` keeps the challenges in Redis through `NonceService`; the legacy service
(`auth.service.ts`) has a `NonceStore`, which is Redis or a map in the process.

The SDK, with the check of a signature, is a parameter.

* `challenge_once_of_reach`: one request passes for a nonce, with the key that the challenge was
  issued to and as long as it is stored, if no request reads a challenge while another one that has
  read it is about to delete it.
-/

namespace NiffyInsure.Backend.Challenges

open CheckThenAct

/-! ## The data -/

structure StoredChallenge where
  publicKey : String
  message : String
  deriving DecidableEq

inductive ErrorKind where
  | badRequest
  | unauthorized
  deriving DecidableEq

inductive Error where
  | http (kind : ErrorKind) (code : Option String) (message : String)
  /-- What the Redis client throws. -/
  | redis
  deriving DecidableEq

/-- The SDK: `StrKey.isValidEd25519PublicKey` and `isValidContract`, the account of a muxed address
(`none` where this throws), and whether `verifyEd25519` accepts a signature of a message. -/
structure Sdk where
  isValidEd25519PublicKey : String → Bool
  isValidContract : String → Bool
  baseAccount : String → Option String
  verifyEd25519 : String → String → String → Bool

/-- The settings, and how an instant (in milliseconds) is written. -/
structure Config where
  domain : String
  nonceTtlSeconds : Nat
  toISOString : Nat → String

/-! ## The parts of the two services -/

def Sdk.normalizeAddress (sdk : Sdk) (raw : String) : Except Error String :=
  if raw = "" then
    throw (.http .badRequest (some "INVALID_ADDRESS") "Stellar address must be a non-empty string.")
  else
    let trimmed := Js.trimString raw
    if sdk.isValidEd25519PublicKey trimmed then pure trimmed
    else if sdk.isValidContract trimmed then pure trimmed
    else
      let base := if trimmed.toList.head? = some 'M' then sdk.baseAccount trimmed else none
      match base.filter sdk.isValidEd25519PublicKey with
      | some base => pure base
      | none => throw (.http .badRequest (some "INVALID_ADDRESS")
          ("\"" ++ trimmed ++ "\" is not a valid Stellar address (G-, C-, or M-address)."))

/-- How a service checks a public key, and what it throws where there is no challenge, where the
challenge was issued to another key, and where the signature is wrong. -/
structure Flow where
  canonical : String → Except Error String
  absent : Error
  keyMismatch : Error
  invalidSignature : Error

/-- `WalletAuthService`. -/
def walletAuth (sdk : Sdk) : Flow where
  canonical publicKey := do
    let canonicalKey ← sdk.normalizeAddress publicKey
    if sdk.isValidEd25519PublicKey canonicalKey then pure canonicalKey
    else throw (.http .badRequest (some "INVALID_PUBLIC_KEY") "Invalid Stellar public key.")
  absent := .http .unauthorized (some "NONCE_EXPIRED_OR_USED")
    "Challenge expired or already used. Request a new challenge."
  keyMismatch := .http .unauthorized (some "KEY_MISMATCH")
    "Public key does not match the one used to request the challenge."
  invalidSignature := .http .unauthorized (some "INVALID_SIGNATURE")
    "Signature verification failed."

/-- The legacy service. -/
def legacy (sdk : Sdk) : Flow where
  canonical publicKey :=
    if sdk.isValidEd25519PublicKey publicKey then pure publicKey
    else throw (.http .badRequest none "Invalid Stellar public key.")
  absent := .http .unauthorized none "Challenge expired or already used. Request a new challenge."
  keyMismatch := .http .unauthorized none
    "The public key does not match the one used to request the challenge."
  invalidSignature := .http .unauthorized none "Signature verification failed."

/-- What becomes of a command that fails. -/
inductive Failure where
  /-- Commands do not fail. -/
  | never
  /-- Nothing is thrown, and a read finds nothing. -/
  | ignored
  | thrown
  deriving DecidableEq

/-- Where challenges are kept: the key of a nonce, how many milliseconds an entry is found, and what
becomes of a command that fails. -/
structure NonceStore where
  key : String → String
  key_inj : ∀ {m n}, key m = key n → m = n
  lifetime : Nat → Nat
  failure : Failure

/-- `NonceService`, on `RedisService`. -/
def nonceService : NonceStore where
  key nonce := "nonce:" ++ nonce
  key_inj h := (String.append_right_inj _).mp h
  lifetime ttlSeconds := ttlSeconds * 1000
  failure := .ignored

def redisNonceStore : NonceStore where
  key nonce := "nonce:" ++ nonce
  key_inj h := (String.append_right_inj _).mp h
  lifetime ttlSeconds := ttlSeconds * 1000
  failure := .thrown

/-- An entry is expired only after the millisecond `expiresAt`.  (That expired entries are deleted
cannot be seen.) -/
def inMemoryNonceStore : NonceStore where
  key nonce := nonce
  key_inj h := h
  lifetime ttlSeconds := ttlSeconds * 1000 + 1
  failure := .never

structure Service where
  flow : Flow
  store : NonceStore
  sdk : Sdk
  config : Config

/-- The services, each with the stores that it may have. -/
inductive Implementation where
  | walletAuth
  | legacyRedis
  | legacyInMemory
  deriving DecidableEq

def Implementation.service (sdk : Sdk) (config : Config) : Implementation → Service
  | .walletAuth => ⟨Challenges.walletAuth sdk, nonceService, sdk, config⟩
  | .legacyRedis => ⟨legacy sdk, redisNonceStore, sdk, config⟩
  | .legacyInMemory => ⟨legacy sdk, inMemoryNonceStore, sdk, config⟩

/-! ## The calls -/

/-- A challenge that was issued, and when it was stored. -/
structure Issued where
  nonce : String
  publicKey : String
  storedAt : Nat
  deriving DecidableEq

/-- A request that has passed, and when it had read the challenge. -/
structure Pass where
  nonce : String
  publicKey : String
  readAt : Nat
  deriving DecidableEq

/-- The stored challenges, and what was issued and what has passed so far. -/
structure State where
  store : Expiring String StoredChallenge
  issued : List Issued
  passes : List Pass

/-- How far a call has come: the command that it sends next. -/
inductive Call where
  | set (nonce : String) (challenge : StoredChallenge) (expiresAt : String)
  | get (publicKey nonce signature : String)
  | del (publicKey nonce signature : String) (stored : StoredChallenge) (readAt : Nat)
  | challenged (nonce message expiresAt : String)
  /-- The request goes on to issue tokens for the key. -/
  | passed (publicKey nonce : String)
  | threw (error : Error)
  deriving DecidableEq

/-- A command succeeds or fails. -/
inductive Outcome where
  | ok
  | error
  deriving DecidableEq

inductive Request where
  /-- The nonce is what `uuidv4` returns. -/
  | generateChallenge (publicKey nonce : String)
  | verifyChallenge (publicKey nonce signature : String)

variable (service : Service)

def Service.key (nonce : String) : String := service.store.key nonce

/-- How long a challenge is found. -/
def Service.lifetime : Nat := service.store.lifetime service.config.nonceTtlSeconds

def Service.buildMessage (publicKey nonce issuedAt expiresAt : String) : String :=
  "\n".intercalate
    [service.config.domain ++ " wants you to sign in with your Stellar account:", publicKey, "",
      "Please sign this challenge to verify your identity.", "",
      "URI: https://" ++ service.config.domain, "Version: 1", "Nonce: " ++ nonce,
      "Issued At: " ++ issuedAt, "Expiration Time: " ++ expiresAt]

/-- The key and the signature are right. -/
def Service.Passes (publicKey signature : String) (stored : StoredChallenge) : Prop :=
  stored.publicKey = publicKey ∧
    service.sdk.verifyEd25519 publicKey stored.message signature = true

instance (publicKey signature : String) (stored : StoredChallenge) :
    Decidable (service.Passes publicKey signature stored) :=
  inferInstanceAs (Decidable (_ ∧ _))

/-- What comes after the nonce is deleted.  (The legacy service compares the keys before, but
deletes the nonce in either case.) -/
def Service.finish (s : State) (publicKey nonce signature : String) (stored : StoredChallenge)
    (readAt : Nat) : State × Call :=
  if stored.publicKey ≠ publicKey then (s, .threw service.flow.keyMismatch)
  else if service.sdk.verifyEd25519 publicKey stored.message signature then
    ({ s with passes := s.passes ++ [⟨nonce, publicKey, readAt⟩] }, .passed publicKey nonce)
  else (s, .threw service.flow.invalidSignature)

def Service.start (s : State) : Request → Option (State × Call)
  | .generateChallenge publicKey nonce =>
    match service.flow.canonical publicKey with
    | .ok canonicalKey =>
      let issuedAt := service.config.toISOString s.store.now
      let expiresAt :=
        service.config.toISOString (s.store.now + service.config.nonceTtlSeconds * 1000)
      some (s, .set nonce
        ⟨canonicalKey, service.buildMessage canonicalKey nonce issuedAt expiresAt⟩ expiresAt)
    | .error error => some (s, .threw error)
  | .verifyChallenge publicKey nonce signature =>
    match service.flow.canonical publicKey with
    | .ok canonicalKey => some (s, .get canonicalKey nonce signature)
    | .error error => some (s, .threw error)

/-- The next step. -/
def Service.next (s : State) : Call → Outcome → Option (State × Call)
  | .set nonce challenge expiresAt, .ok =>
    some ({ s with
      store := s.store.set (service.key nonce) challenge service.lifetime
      issued := s.issued ++ [⟨nonce, challenge.publicKey, s.store.now⟩] },
      .challenged nonce challenge.message expiresAt)
  | .set nonce challenge expiresAt, .error =>
    match service.store.failure with
    | .never => none
    | .ignored =>
      some ({ s with issued := s.issued ++ [⟨nonce, challenge.publicKey, s.store.now⟩] },
        .challenged nonce challenge.message expiresAt)
    | .thrown => some (s, .threw .redis)
  | .get publicKey nonce signature, .ok =>
    match s.store.get (service.key nonce) with
    | some stored => some (s, .del publicKey nonce signature stored s.store.now)
    | none => some (s, .threw service.flow.absent)
  | .get _ _ _, .error =>
    match service.store.failure with
    | .never => none
    | .ignored => some (s, .threw service.flow.absent)
    | .thrown => some (s, .threw .redis)
  | .del publicKey nonce signature stored readAt, .ok =>
    some (service.finish { s with store := s.store.delete (service.key nonce) }
      publicKey nonce signature stored readAt)
  | .del publicKey nonce signature stored readAt, .error =>
    match service.store.failure with
    | .never => none
    | .ignored => some (service.finish s publicKey nonce signature stored readAt)
    | .thrown => some (s, .threw .redis)
  | _, _ => none

/-- The calls of `generateChallenge` and `verifyChallenge`; the surroundings let the time go on. -/
def Service.program : Concurrent.Program State Call Request Outcome Nat where
  start := service.start
  next := service.next
  around s n := some { s with store := s.store.pass n }

/-- No challenge was issued yet. -/
def State.fresh : State := ⟨.empty, [], []⟩

def Service.machine : Machine (Concurrent.State State Call)
    (Concurrent.Label Request Outcome Nat) :=
  service.program.machine (· = .fresh)

/-! ## What is claimed of them -/

/-- The challenge was issued to the key, and was read before it expired. -/
def Service.Vouched (s : State) (nonce publicKey : String) (readAt : Nat) : Prop :=
  ∃ c ∈ s.issued, c.nonce = nonce ∧ c.publicKey = publicKey ∧
    readAt < c.storedAt + service.lifetime

instance (s : State) (nonce publicKey : String) (readAt : Nat) :
    Decidable (service.Vouched s nonce publicKey readAt) :=
  inferInstanceAs (Decidable (∃ c ∈ s.issued, _))

/-- The nonces for which a request has passed. -/
def State.passedNonces (s : State) : List String := s.passes.map Pass.nonce

/-- A nonce is closed when it was issued and its challenge is gone; a request that is going to pass
has it in hand from when it has read the challenge until it has deleted it. -/
def Service.view : View State Call String where
  closed s nonce := (∃ c ∈ s.issued, c.nonce = nonce) ∧ s.store.get (service.key nonce) = none
  log := State.passedNonces
  inHand
    | .del publicKey nonce signature stored _ =>
      if service.Passes publicKey signature stored then some (nonce, false) else none
    | _ => none

/-- A nonce is new.  A request that reads a challenge and is going to pass reads it while no other
such request is between its read and its deletion.  The deletion of a challenge by a request that is
going to pass does not fail unnoticed. -/
def Service.Undisturbed (s : Concurrent.State State Call) : Call → Outcome → Prop
  | .set nonce _ _, _ => ∀ c ∈ s.shared.issued, c.nonce ≠ nonce
  | .get publicKey nonce signature, .ok => ∀ stored ∈ s.shared.store.get (service.key nonce),
    service.Passes publicKey signature stored → service.view.Free s nonce
  | .del publicKey _ signature stored _, .error =>
    service.store.failure = .ignored → ¬ service.Passes publicKey signature stored
  | _, _ => True

instance (s : Concurrent.State State Call) (p : Call) (outcome : Outcome) :
    Decidable (service.Undisturbed s p outcome) :=
  match p, outcome with
  | .set nonce _ _, _ => inferInstanceAs (Decidable (∀ c ∈ s.shared.issued, c.nonce ≠ nonce))
  | .get publicKey nonce signature, .ok => inferInstanceAs (Decidable
      (∀ stored ∈ s.shared.store.get (service.key nonce),
        service.Passes publicKey signature stored → service.view.Free s nonce))
  | .del publicKey _ signature stored _, .error => inferInstanceAs (Decidable
      (service.store.failure = .ignored → ¬ service.Passes publicKey signature stored))
  | .get _ _ _, .error | .del _ _ _ _ _, .ok | .challenged _ _ _, _ | .passed _ _, _
  | .threw _, _ => inferInstanceAs (Decidable True)

/-- The call that takes the step is undisturbed. -/
def Service.ChallengeClear (s : Concurrent.State State Call) :
    Concurrent.Label Request Outcome Nat → Prop
  | .next i outcome => ∀ p ∈ s.calls[i]?, service.Undisturbed s p outcome
  | _ => True

instance (s : Concurrent.State State Call) (l : Concurrent.Label Request Outcome Nat) :
    Decidable (service.ChallengeClear s l) :=
  match l with
  | .next i outcome =>
    inferInstanceAs (Decidable (∀ p ∈ s.calls[i]?, service.Undisturbed s p outcome))
  | .start _ | .around _ => inferInstanceAs (Decidable True)

variable {service} {s : Concurrent.State State Call} {p : Call} {q : State × Call}
  {outcome : Outcome} {publicKey nonce signature : String} {stored : StoredChallenge} {readAt : Nat}

/-! ## One step -/

theorem finish_of_passes {shared : State} (h : service.Passes publicKey signature stored) :
    service.finish shared publicKey nonce signature stored readAt =
      ({ shared with passes := shared.passes ++ [⟨nonce, publicKey, readAt⟩] },
        .passed publicKey nonce) := by
  rw [Service.finish, if_neg (not_not.mpr h.1), if_pos h.2]

theorem finish_of_not_passes (shared : State) (nonce : String) (readAt : Nat)
    (h : ¬ service.Passes publicKey signature stored) :
    ∃ error, service.finish shared publicKey nonce signature stored readAt =
      (shared, .threw error) := by
  rw [Service.finish]
  split
  · exact ⟨_, rfl⟩
  · rename_i hkey
    split
    · rename_i hsig
      exact absurd ⟨of_not_not hkey, hsig⟩ h
    · exact ⟨_, rfl⟩

/-- **What one step does.**  It stores a challenge or fails to, reads one, deletes one and judges
the request, or throws. -/
theorem next_cases {shared : State} (h : service.next shared p outcome = some q) :
    (∃ nonce challenge expiresAt store, p = .set nonce challenge expiresAt ∧
      (store = shared.store.set (service.key nonce) challenge service.lifetime ∨
        store = shared.store) ∧
      q = (⟨store, shared.issued ++ [⟨nonce, challenge.publicKey, shared.store.now⟩],
        shared.passes⟩, .challenged nonce challenge.message expiresAt)) ∨
    (∃ publicKey nonce signature stored, p = .get publicKey nonce signature ∧ outcome = .ok ∧
      shared.store.get (service.key nonce) = some stored ∧
        q = (shared, .del publicKey nonce signature stored shared.store.now)) ∨
    (∃ publicKey nonce signature stored readAt store,
      p = .del publicKey nonce signature stored readAt ∧
      (store = shared.store.delete (service.key nonce) ∨
        store = shared.store ∧ outcome = .error ∧ service.store.failure = .ignored) ∧
      q = service.finish { shared with store } publicKey nonce signature stored readAt) ∨
    ∃ error, q = (shared, .threw error) := by
  rw [Service.next.eq_def] at h
  split at h
  · rename_i nonce challenge expiresAt
    cases h
    exact .inl ⟨nonce, challenge, expiresAt, _, rfl, .inl rfl, rfl⟩
  · rename_i nonce challenge expiresAt
    split at h
    · cases h
    · cases h
      exact .inl ⟨nonce, challenge, expiresAt, _, rfl, .inr rfl, rfl⟩
    · cases h
      exact .inr (.inr (.inr ⟨_, rfl⟩))
  · rename_i publicKey nonce signature
    split at h
    · rename_i stored hfound
      cases h
      exact .inr (.inl ⟨publicKey, nonce, signature, stored, rfl, rfl, hfound, rfl⟩)
    · cases h
      exact .inr (.inr (.inr ⟨_, rfl⟩))
  · split at h
    · cases h
    · cases h
      exact .inr (.inr (.inr ⟨_, rfl⟩))
    · cases h
      exact .inr (.inr (.inr ⟨_, rfl⟩))
  · rename_i publicKey nonce signature stored readAt
    cases h
    exact .inr (.inr (.inl ⟨publicKey, nonce, signature, stored, readAt, _, rfl, .inl rfl, rfl⟩))
  · rename_i publicKey nonce signature stored readAt
    split at h
    · cases h
    · rename_i hfailure
      cases h
      exact .inr (.inr (.inl
        ⟨publicKey, nonce, signature, stored, readAt, _, rfl, .inr ⟨rfl, rfl, hfailure⟩, rfl⟩))
    · cases h
      exact .inr (.inr (.inr ⟨_, rfl⟩))
  · cases h

/-- What holds of a call: a challenge that it has read was issued to the key that is in it. -/
def Service.CallSound (service : Service) (s : State) : Call → Prop
  | .del _ nonce _ stored readAt => service.Vouched s nonce stored.publicKey readAt
  | _ => True

/-- Every stored challenge was issued, and is found for its lifetime; every request that has passed
is vouched for. -/
structure Service.Sound (service : Service) (s : State) : Prop where
  entries : ∀ nonce stored expiry, s.store.entries (service.key nonce) = some (stored, expiry) →
    ∃ c ∈ s.issued, c.nonce = nonce ∧ c.publicKey = stored.publicKey ∧
      expiry = c.storedAt + service.lifetime
  passes : ∀ pass ∈ s.passes, service.Vouched s pass.nonce pass.publicKey pass.readAt

theorem Service.Sound.vouched {shared : State} (h : service.Sound shared)
    (hfound : shared.store.get (service.key nonce) = some stored) :
    service.Vouched shared nonce stored.publicKey shared.store.now := by
  obtain ⟨expiry, hentry, hnow⟩ := Expiring.get_eq_some.mp hfound
  obtain ⟨c, hc, hnonce, hkey, hexpiry⟩ := h.entries nonce stored expiry hentry
  exact ⟨c, hc, hnonce, hkey, hexpiry ▸ hnow⟩

theorem Service.Vouched.mono {s t : State} (h : service.Vouched s nonce publicKey readAt)
    (hissued : s.issued ⊆ t.issued) : service.Vouched t nonce publicKey readAt := by
  obtain ⟨c, hc, hrest⟩ := h
  exact ⟨c, hissued hc, hrest⟩

theorem Service.CallSound.mono {s t : State} (h : service.CallSound s p)
    (hissued : s.issued ⊆ t.issued) : service.CallSound t p := by
  cases p with
  | del publicKey nonce signature stored readAt => exact Service.Vouched.mono h hissued
  | set | get | challenged | passed | threw => trivial

theorem Service.Sound.delete {shared : State} {store : Expiring String StoredChallenge}
    (h : service.Sound shared)
    (hstore : store = shared.store.delete (service.key nonce) ∨ store = shared.store) :
    service.Sound { shared with store } := by
  refine ⟨?_, h.passes⟩
  intro m stored expiry hentry
  rcases hstore with rfl | rfl
  · change Function.update shared.store.entries _ _ _ = _ at hentry
    rw [Function.update_apply] at hentry
    split at hentry
    · cases hentry
    · exact h.entries m stored expiry hentry
  · exact h.entries m stored expiry hentry

theorem issued_finish (shared : State) :
    (service.finish shared publicKey nonce signature stored readAt).1.issued = shared.issued := by
  by_cases hpasses : service.Passes publicKey signature stored
  · rw [finish_of_passes hpasses]
  · obtain ⟨error, hthrew⟩ := finish_of_not_passes shared nonce readAt hpasses
    rw [hthrew]

theorem store_finish (shared : State) :
    (service.finish shared publicKey nonce signature stored readAt).1.store = shared.store := by
  by_cases hpasses : service.Passes publicKey signature stored
  · rw [finish_of_passes hpasses]
  · obtain ⟨error, hthrew⟩ := finish_of_not_passes shared nonce readAt hpasses
    rw [hthrew]

theorem issued_next {shared : State} (h : service.next shared p outcome = some q) :
    shared.issued ⊆ q.1.issued := by
  rcases next_cases h with ⟨-, -, -, -, -, -, rfl⟩ | ⟨-, -, -, -, -, -, -, rfl⟩ |
    ⟨-, -, -, -, -, store, -, -, rfl⟩ | ⟨-, rfl⟩
  · exact List.subset_append_left ..
  · exact List.Subset.refl _
  · rw [issued_finish]
    exact List.Subset.refl _
  · exact List.Subset.refl _

/-- **A step keeps what is stored issued, and what has passed vouched for.** -/
theorem sound_next {shared : State} (hs : service.Sound shared) (hp : service.CallSound shared p)
    (h : service.next shared p outcome = some q) :
    service.Sound q.1 ∧ service.CallSound q.1 q.2 := by
  have hissued := issued_next h
  rcases next_cases h with ⟨nonce, challenge, expiresAt, store, rfl, hstore, rfl⟩ |
    ⟨publicKey, nonce, signature, stored, rfl, -, hfound, rfl⟩ |
    ⟨publicKey, nonce, signature, stored, readAt, store, rfl, hstore, rfl⟩ | ⟨error, rfl⟩
  · -- a challenge is stored
    refine ⟨⟨?_, fun pass hpass => (hs.passes pass hpass).mono hissued⟩, trivial⟩
    intro m stored expiry hentry
    have hold : ∀ {e}, shared.store.entries (service.key m) = some e → e = (stored, expiry) →
        ∃ c ∈ shared.issued ++ [⟨nonce, challenge.publicKey, shared.store.now⟩], c.nonce = m ∧
          c.publicKey = stored.publicKey ∧ expiry = c.storedAt + service.lifetime := by
      rintro e he rfl
      obtain ⟨c, hc, hrest⟩ := hs.entries m stored expiry he
      exact ⟨c, hissued hc, hrest⟩
    rcases hstore with rfl | rfl
    · change Function.update shared.store.entries _ _ _ = _ at hentry
      rw [Function.update_apply] at hentry
      split at hentry
      · rename_i hkey
        cases hentry
        exact ⟨_, List.mem_append_right _ (List.mem_singleton_self _),
          (service.store.key_inj hkey).symm, rfl, rfl⟩
      · exact hold hentry rfl
    · exact hold hentry rfl
  · exact ⟨hs, hs.vouched hfound⟩
  · -- a challenge is deleted, or was to be
    have hs' := hs.delete (hstore.imp_right And.left)
    by_cases hpasses : service.Passes publicKey signature stored
    · rw [finish_of_passes hpasses]
      refine ⟨⟨hs'.entries, ?_⟩, trivial⟩
      intro pass hpass
      rcases List.mem_append.mp hpass with hpass | hpass
      · exact hs.passes pass hpass
      · rw [List.mem_singleton.mp hpass, ← hpasses.1]
        exact hp
    · obtain ⟨error, hthrew⟩ := finish_of_not_passes { shared with store } nonce readAt hpasses
      rw [hthrew]
      exact ⟨hs', trivial⟩
  · exact ⟨hs, trivial⟩

theorem closed_next {k : String} (hclear : service.Undisturbed s p outcome)
    (h : service.next s.shared p outcome = some q) (hk : service.view.closed s.shared k) :
    service.view.closed q.1 k := by
  obtain ⟨⟨c, hc, rfl⟩, hgone⟩ := hk
  refine ⟨⟨c, issued_next h hc, rfl⟩, ?_⟩
  rcases next_cases h with ⟨nonce, challenge, expiresAt, store, rfl, hstore, rfl⟩ |
    ⟨-, -, -, -, -, -, -, rfl⟩ | ⟨-, nonce, -, -, -, store, -, hstore, rfl⟩ | ⟨-, rfl⟩
  · have hne : service.key c.nonce ≠ service.key nonce := by
      intro hkey
      exact hclear c hc (service.store.key_inj hkey)
    rcases hstore with rfl | rfl
    · exact (Expiring.get_set_of_ne hne).trans hgone
    · exact hgone
  · exact hgone
  · rw [store_finish]
    rcases hstore with rfl | ⟨rfl, -⟩
    · cases hget : (s.shared.store.delete (service.key nonce)).get (service.key c.nonce) with
      | none => rfl
      | some stored =>
        rw [Expiring.get_of_delete hget] at hgone
        cases hgone
    · exact hgone
  · exact hgone

theorem inHand_of_passes (h : service.Passes publicKey signature stored) :
    service.view.inHand (.del publicKey nonce signature stored readAt) = some (nonce, false) :=
  if_pos h

theorem inHand_of_not_passes (h : ¬ service.Passes publicKey signature stored) :
    service.view.inHand (.del publicKey nonce signature stored readAt) = none :=
  if_neg h

/-- **What a step does** with a nonce in hand. -/
theorem move_next (hclear : service.Undisturbed s p outcome) (hp : service.CallSound s.shared p)
    (h : service.next s.shared p outcome = some q) : service.view.Move s p q := by
  rcases next_cases h with ⟨nonce, challenge, expiresAt, store, rfl, -, rfl⟩ |
    ⟨publicKey, nonce, signature, stored, rfl, rfl, hfound, rfl⟩ |
    ⟨publicKey, nonce, signature, stored, readAt, store, rfl, hstore, rfl⟩ | ⟨error, rfl⟩
  · exact .stay rfl rfl
  · -- the challenge is read
    by_cases hpasses : service.Passes publicKey signature stored
    · refine .take nonce rfl rfl (inHand_of_passes hpasses) ?_ (hclear stored hfound hpasses)
      rintro ⟨-, hgone⟩
      rw [hfound] at hgone
      cases hgone
    · exact .stay rfl (inHand_of_not_passes hpasses)
  · by_cases hpasses : service.Passes publicKey signature stored
    · -- the request passes, and the challenge is gone
      have hdeleted : store = s.shared.store.delete (service.key nonce) := by
        rcases hstore with hdeleted | ⟨-, rfl, hfailure⟩
        · exact hdeleted
        · exact absurd hpasses (hclear hfailure)
      rw [finish_of_passes hpasses, hdeleted]
      refine .actAndClose nonce ?_ (inHand_of_passes hpasses) rfl ?_
      · exact List.map_append
      · obtain ⟨c, hc, hnonce, -⟩ := hp
        refine ⟨⟨c, hc, hnonce⟩, ?_⟩
        show Option.bind (Function.update s.shared.store.entries _ _ _) _ = none
        rw [Function.update_self]
        rfl
    · obtain ⟨error, hthrew⟩ := finish_of_not_passes { s.shared with store } nonce readAt hpasses
      rw [hthrew]
      exact .stay rfl (inHand_of_not_passes hpasses).symm
  · -- the call ends
    cases hin : service.view.inHand p with
    | none => exact .stay rfl hin.symm
    | some held =>
      obtain ⟨nonce, acted⟩ := held
      refine .release nonce acted rfl hin rfl ?_
      rintro rfl
      cases p with
      | del publicKey nonce signature stored readAt =>
        by_cases hpasses : service.Passes publicKey signature stored
        · rw [inHand_of_passes hpasses] at hin
          cases hin
        · rw [inHand_of_not_passes hpasses] at hin
          cases hin
      | set | get | challenged | passed | threw => cases hin

/-! ## The run -/

theorem start_cases {shared : State} {request : Request}
    (h : service.start shared request = some q) :
    q.1 = shared ∧ service.CallSound q.1 q.2 ∧ service.view.inHand q.2 = none := by
  rw [Service.start.eq_def] at h
  split at h
  all_goals
    split at h
    all_goals
      cases h
      exact ⟨rfl, trivial, rfl⟩

theorem sound_of_reach {ok : Concurrent.State State Call → Concurrent.Label Request Outcome Nat →
    Prop} (h : service.machine.Reach ok s) :
    service.Sound s.shared ∧ ∀ p ∈ s.calls, service.CallSound s.shared p := by
  refine Concurrent.Reach.sharedInvariant (J := service.CallSound) ?_ ?_ ?_ ?_ h
  · rintro s rfl
    exact ⟨nofun, nofun⟩
  · intro s request q _ hs hq
    obtain ⟨hsame, hcall, -⟩ := start_cases hq
    rw [hsame] at hcall ⊢
    exact ⟨hs, hcall, fun _ _ hp => hp⟩
  · intro s i outcome p q _ _ hs hp hq
    obtain ⟨hs', hp'⟩ := sound_next hs hp hq
    exact ⟨hs', hp', fun _ _ hp => hp.mono (issued_next hq)⟩
  · intro s n shared _ hs hshared
    cases hshared
    exact ⟨⟨hs.entries, hs.passes⟩, fun _ _ hp => hp.mono (List.Subset.refl _)⟩

/-- **A challenge is used once.**  If no request reads a challenge while another one that is going
to pass is between its read and its deletion of it, no deletion fails unnoticed and all nonces are
different, then one request passes for a nonce; and every request passes with the key that the
challenge was issued to, and has read it before it expired. -/
theorem challenge_once_of_reach (sdk : Sdk) (config : Config) (implementation : Implementation)
    (h : (implementation.service sdk config).machine.Reach
      (implementation.service sdk config).ChallengeClear s) :
    (∀ nonce, s.shared.passedNonces.count nonce ≤ 1) ∧
    ∀ pass ∈ s.shared.passes,
      (implementation.service sdk config).Vouched s.shared pass.nonce pass.publicKey
      pass.readAt := by
  have honce : (implementation.service sdk config).view.Once s := by
    refine Reach.once ?_ ?_ ?_ ?_ h
    · rintro s rfl
      rfl
    · intro s request q _ hq
      obtain ⟨hsame, -, hhand⟩ := start_cases hq
      rw [hsame]
      exact ⟨hhand, rfl, fun _ hk => hk⟩
    · intro s i outcome p q hreach hl hcall hq
      have hp := (sound_of_reach hreach).2 p (List.mem_of_getElem? hcall)
      exact ⟨move_next (hl p hcall) hp hq, fun _ hk => closed_next (hl p hcall) hq hk⟩
    · intro s n shared _ hshared
      cases hshared
      refine ⟨rfl, ?_⟩
      rintro k ⟨hissued, hgone⟩
      refine ⟨hissued, ?_⟩
      cases hget : (s.shared.store.pass n).get ((implementation.service sdk config).key k) with
      | none => rfl
      | some stored =>
        rw [Expiring.get_of_pass hget] at hgone
        cases hgone
  exact ⟨List.nodup_iff_count_le_one.mp honce.once, (sound_of_reach h).1.passes⟩

/-- Every address is a public key, and every signature but the empty one is right. -/
def trusting : Sdk where
  isValidEd25519PublicKey _ := true
  isValidContract _ := false
  baseAccount _ := none
  verifyEd25519 _ _ signature := signature ≠ ""

def fiveMinutes : Config where
  domain := "niffyinsure.local"
  nonceTtlSeconds := 300
  toISOString n := toString n

theorem challenge_once_retried :
    ∃ s, (Implementation.walletAuth.service trusting fiveMinutes).machine.Reach
        (Implementation.walletAuth.service trusting fiveMinutes).ChallengeClear s ∧
      .passed "GALICE" "n" ∈ s.calls ∧ s.calls.length = 3 ∧
        s.shared.passedNonces.count "n" ≤ 1 ∧
          ∀ pass ∈ s.shared.passes, (Implementation.walletAuth.service trusting fiveMinutes).Vouched
            s.shared pass.nonce pass.publicKey pass.readAt := by
  obtain ⟨s, h, hcall, hlength⟩ : ∃ s,
      (Implementation.walletAuth.service trusting fiveMinutes).machine.Reach
        (Implementation.walletAuth.service trusting fiveMinutes).ChallengeClear s ∧
      .passed "GALICE" "n" ∈ s.calls ∧ s.calls.length = 3 :=
    Machine.exists_reach_of_runAll
      [.start (.generateChallenge "GALICE" "n"), .next 0 .ok, .around 1000,
        .start (.verifyChallenge "GALICE" "n" "sig"), .start (.verifyChallenge "GALICE" "n" "sig"),
        .next 1 .ok, .next 1 .ok, .next 2 .ok]
      (s := ⟨.fresh, []⟩) ⟨rfl, rfl⟩ (by decide)
  exact ⟨s, h, hcall, hlength, (challenge_once_of_reach _ _ _ h).1 "n",
    (challenge_once_of_reach _ _ _ h).2⟩

/-- Two requests pass for one nonce. -/
def Service.PassesTwice (service : Service) : Prop :=
  ∃ s, service.machine.Reach Machine.always s ∧ s.shared.passedNonces.count "n" = 2

/-- Two requests read the challenge before either has deleted it, with each service and store. -/
theorem challenge_passed_twice :
    (Implementation.walletAuth.service trusting fiveMinutes).PassesTwice ∧
    (Implementation.legacyRedis.service trusting fiveMinutes).PassesTwice ∧
    (Implementation.legacyInMemory.service trusting fiveMinutes).PassesTwice := by
  refine ⟨?_, ?_, ?_⟩
  all_goals
    exact Machine.exists_reach_of_runAll
      [.start (.generateChallenge "GALICE" "n"), .next 0 .ok,
        .start (.verifyChallenge "GALICE" "n" "sig"), .start (.verifyChallenge "GALICE" "n" "sig"),
        .next 1 .ok, .next 2 .ok, .next 1 .ok, .next 2 .ok]
      (s := ⟨.fresh, []⟩) ⟨rfl, rfl⟩ (by decide)

end NiffyInsure.Backend.Challenges
