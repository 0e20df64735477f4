import NiffyInsure.Lib.CheckThenAct
import NiffyInsure.Lib.Expiring

/-!
# Refresh tokens

`refresh` (`wallet-auth.service.ts`) consumes a refresh token and issues the next one.  `consume`
(`refresh-token.service.ts`) reads the record of the token and marks it as rotated with a second
command; a token that is marked already counts as reused, and all tokens of its wallet are to be
revoked.  The sweep asks Redis for the keys that begin with `rt:`.  The client puts its own prefix
before the keys of `GET`, `SETEX` and `DEL`, but not into the pattern of `SCAN` nor off the keys
that `SCAN` returns.

The model keeps the log of the tokens that were issued and accepted and of the reuses that were
detected.

* `next_cases`: what one step of a call does.
* `refresh_once_of_reach`: a token is accepted once and has one successor, and no token is accepted
  after a reuse was detected for its wallet, as long as no token is read while another call is
  rotating it, and a reuse is detected only where the wallet has no token left.
-/

namespace NiffyInsure.Backend.RefreshTokens

open CheckThenAct

/-! ## Redis and the log -/

structure Record where
  walletAddress : String
  rotated : Bool
  deriving DecidableEq

/-- A token was issued to a wallet (as the successor of another one, if there is one), was accepted
by `consume`, or was found to be reused. -/
inductive Event where
  | issued (raw walletAddress : String) (successorOf : Option String)
  | accepted (raw : String)
  | detected (walletAddress : String)
  deriving DecidableEq

/-- The keys of Redis that hold records, and the log. -/
structure State where
  redis : Expiring String Record
  log : List Event

/-- The key prefix of the client, the hash, and the lifetime of a token. -/
structure Service where
  keyPrefix : String
  hash : String → String
  ttl : Nat

/-- The prefix of the keys of this service. -/
def PREFIX : String := "rt:"

def Service.key (service : Service) (raw : String) : String := PREFIX ++ service.hash raw

/-- The key as Redis knows it. -/
def Service.stored (service : Service) (key : String) : String := service.keyPrefix ++ key

/-- The tokens that were accepted. -/
def State.accepted (s : State) : List String :=
  s.log.filterMap fun
    | .accepted raw => some raw
    | _ => none

/-- For each token that was issued as a successor, the token that it succeeds. -/
def State.succeeded (s : State) : List String :=
  s.log.filterMap fun
    | .issued _ _ successorOf => successorOf
    | _ => none

/-! ## The calls -/

/-- How far a call has come: the command that it sends next. -/
inductive Call where
  /-- `SETEX` of a new token. -/
  | issue (walletAddress : String) (successorOf : Option String)
  /-- `GET` of the token to be consumed. -/
  | get (raw : String)
  /-- `SETEX` of the token that is marked as rotated. -/
  | rotate (raw walletAddress : String)
  | scan (walletAddress cursor : String)
  /-- `GET` of a key that the sweep has come to. -/
  | sweepGet (walletAddress cursor key : String) (keys : List String)
  | sweepDel (walletAddress cursor key : String) (keys : List String)
  /-- `DEL` of `logout`. -/
  | del (raw : String)
  | returned (token : Option String)
  | threw (message : String)
  deriving DecidableEq

/-- Redis answers or fails; the random token and whether it was stored; what `SCAN` returns. -/
inductive Outcome where
  | ok
  | error
  | random (raw : String) (stored : Bool)
  | scanned (cursor : String) (keys : List String)

inductive Request where
  /-- `verify`, once the signature is checked. -/
  | login (walletAddress : String)
  | refresh (rawRefreshToken : String)
  | logout (rawRefreshToken : String)

variable (service : Service)

/-- The loop of `revokeAllForWallet` over the keys that are left of a scan. -/
def sweep (walletAddress cursor : String) : List String → Call
  | key :: keys => .sweepGet walletAddress cursor key keys
  | [] =>
    if cursor = "0" then .threw "Refresh token reuse detected — session revoked"
    else .scan walletAddress cursor

/-- The next step.  `RedisService` answers `null` when a `GET` fails and ignores a failing `SETEX`
or `DEL`. -/
def Service.next (s : State) : Call → Outcome → Option (State × Call)
  -- `issue`
  | .issue walletAddress successorOf, .random raw stored =>
    let log := s.log ++ [.issued raw walletAddress successorOf]
    if stored then
      some (⟨s.redis.set (service.stored (service.key raw)) ⟨walletAddress, false⟩ service.ttl,
        log⟩, .returned (some raw))
    else some (⟨s.redis, log⟩, .returned (some raw))
  -- `consume`
  | .get raw, .ok =>
    match s.redis.get (service.stored (service.key raw)) with
    | none => some (s, .threw "Invalid or expired refresh token")
    | some record =>
      if record.rotated then
        some ({ s with log := s.log ++ [.detected record.walletAddress] },
          .scan record.walletAddress "0")
      else some (s, .rotate raw record.walletAddress)
  | .get _, .error => some (s, .threw "Invalid or expired refresh token")
  | .rotate raw walletAddress, .ok =>
    some (⟨s.redis.set (service.stored (service.key raw)) ⟨walletAddress, true⟩ 60,
      s.log ++ [.accepted raw]⟩, .issue walletAddress (some raw))
  | .rotate raw walletAddress, .error =>
    some ({ s with log := s.log ++ [.accepted raw] }, .issue walletAddress (some raw))
  -- `revokeAllForWallet`
  | .scan walletAddress _, .scanned cursor keys =>
    if ∀ key ∈ keys, key.startsWith PREFIX ∧ (s.redis.get key).isSome then
      some (s, sweep walletAddress cursor keys)
    else none
  | .scan _ _, .error => some (s, .threw "Refresh token reuse detected — session revoked")
  | .sweepGet walletAddress cursor key keys, .ok =>
    if (s.redis.get (service.stored key)).any (·.walletAddress = walletAddress) then
      some (s, .sweepDel walletAddress cursor key keys)
    else some (s, sweep walletAddress cursor keys)
  | .sweepGet walletAddress cursor _ keys, .error => some (s, sweep walletAddress cursor keys)
  | .sweepDel walletAddress cursor key keys, .ok =>
    some ({ s with redis := s.redis.delete (service.stored key) }, sweep walletAddress cursor keys)
  | .sweepDel walletAddress cursor _ keys, .error => some (s, sweep walletAddress cursor keys)
  -- `revoke`
  | .del raw, .ok =>
    some ({ s with redis := s.redis.delete (service.stored (service.key raw)) }, .returned none)
  | .del _, .error => some (s, .returned none)
  | _, _ => none

/-- The calls of `verify`, `refresh` and `logout`; the surroundings let the time go on. -/
def Service.program : Concurrent.Program State Call Request Outcome Nat where
  start s
    | .login walletAddress => some (s, .issue walletAddress none)
    | .refresh raw => some (s, .get raw)
    | .logout raw => some (s, .del raw)
  next := service.next
  around s n := some { s with redis := s.redis.pass n }

/-- No token was issued yet. -/
def State.fresh : State := ⟨.empty, []⟩

def Service.machine : Machine (Concurrent.State State Call)
    (Concurrent.Label Request Outcome Nat) :=
  service.program.machine (· = .fresh)

/-! ## What a step does -/

/-- What is found under the key of a token. -/
def Service.record (s : State) (raw : String) : Option Record :=
  s.redis.get (service.stored (service.key raw))

/-- The call has found the token that it consumes, and has not issued its successor yet. -/
def Call.consuming : Call → Bool
  | .rotate _ _ | .issue _ (some _) => true
  | _ => false

/-- The call neither consumes nor issues a token any more. -/
def Call.passive : Call → Bool
  | .scan _ _ | .sweepGet _ _ _ _ | .sweepDel _ _ _ _ | .del _ | .returned _ | .threw _ => true
  | _ => false

variable {service} {s t : State} {p q : Call} {outcome : Outcome} {raw raw' w : String}

theorem passive_sweep (walletAddress cursor : String) (keys : List String) :
    (sweep walletAddress cursor keys).passive = true := by
  cases keys with
  | nil =>
    rw [sweep]
    split <;> rfl
  | cons key keys => rfl

/-- **What one step of a call does**: nothing but to take records away, or it finds the token that
it consumes, detects a reuse, marks the token as rotated and accepts it, or issues a token. -/
theorem next_cases (h : service.next s p outcome = some (t, q)) :
    (t.log = s.log ∧ (∀ raw r, service.record t raw = some r → service.record s raw = some r) ∧
      p.consuming = false ∧ q.passive = true) ∨
    (∃ raw w, p = .get raw ∧ t = s ∧ q = .rotate raw w ∧
      service.record s raw = some ⟨w, false⟩) ∨
    (∃ raw w, p = .get raw ∧ t = { s with log := s.log ++ [.detected w] } ∧ q = .scan w "0" ∧
      service.record s raw = some ⟨w, true⟩) ∨
    (∃ raw w, p = .rotate raw w ∧ q = .issue w (some raw) ∧ t.log = s.log ++ [.accepted raw] ∧
      (t.redis = s.redis.set (service.stored (service.key raw)) ⟨w, true⟩ 60 ∨
        (t.redis = s.redis ∧ outcome = .error))) ∨
    ∃ raw w successorOf stored, p = .issue w successorOf ∧ outcome = .random raw stored ∧
      q = .returned (some raw) ∧ t.log = s.log ++ [.issued raw w successorOf] ∧
        (t.redis = s.redis.set (service.stored (service.key raw)) ⟨w, false⟩ service.ttl ∨
          t.redis = s.redis) := by
  unfold Service.next at h
  split at h
  · rename_i w successorOf raw stored
    dsimp only at h
    split at h
    · cases h
      exact .inr (.inr (.inr (.inr ⟨raw, w, successorOf, stored, rfl, rfl, rfl, rfl, .inl rfl⟩)))
    · cases h
      exact .inr (.inr (.inr (.inr ⟨raw, w, successorOf, stored, rfl, rfl, rfl, rfl, .inr rfl⟩)))
  · rename_i raw
    split at h
    · cases h
      exact .inl ⟨rfl, fun _ _ hr => hr, rfl, rfl⟩
    rename_i record hrecord
    obtain ⟨w, rotated⟩ := record
    split at h
    · rename_i hrotated
      cases hrotated
      cases h
      exact .inr (.inr (.inl ⟨raw, w, rfl, rfl, rfl, hrecord⟩))
    · rename_i hrotated
      rw [Bool.not_eq_true] at hrotated
      cases hrotated
      cases h
      exact .inr (.inl ⟨raw, w, rfl, rfl, rfl, hrecord⟩)
  · cases h
    exact .inl ⟨rfl, fun _ _ hr => hr, rfl, rfl⟩
  · rename_i raw w
    cases h
    exact .inr (.inr (.inr (.inl ⟨raw, w, rfl, rfl, rfl, .inl rfl⟩)))
  · rename_i raw w
    cases h
    exact .inr (.inr (.inr (.inl ⟨raw, w, rfl, rfl, rfl, .inr ⟨rfl, rfl⟩⟩)))
  · split at h
    · cases h
      exact .inl ⟨rfl, fun _ _ hr => hr, rfl, passive_sweep ..⟩
    · cases h
  · cases h
    exact .inl ⟨rfl, fun _ _ hr => hr, rfl, rfl⟩
  · split at h
    · cases h
      exact .inl ⟨rfl, fun _ _ hr => hr, rfl, rfl⟩
    · cases h
      exact .inl ⟨rfl, fun _ _ hr => hr, rfl, passive_sweep ..⟩
  · cases h
    exact .inl ⟨rfl, fun _ _ hr => hr, rfl, passive_sweep ..⟩
  · cases h
    exact .inl ⟨rfl, fun _ _ hr => Expiring.get_of_delete hr, rfl, passive_sweep ..⟩
  · cases h
    exact .inl ⟨rfl, fun _ _ hr => hr, rfl, passive_sweep ..⟩
  · cases h
    exact .inl ⟨rfl, fun _ _ hr => Expiring.get_of_delete hr, rfl, rfl⟩
  · cases h
    exact .inl ⟨rfl, fun _ _ hr => hr, rfl, rfl⟩
  · cases h

/-! ## The condition -/

/-- The token that is issued. -/
def Event.token : Event → Option String
  | .issued raw _ _ => some raw
  | _ => none

/-- The token that is about to be marked as rotated, and its wallet. -/
def Call.rotating : Call → Option (String × String)
  | .rotate raw walletAddress => some (raw, walletAddress)
  | _ => none

/-- The random tokens are new, and `tokens` are the tokens of the run. -/
def Regular (tokens : List String) (s : Concurrent.State State Call) :
    Concurrent.Label Request Outcome Nat → Prop
  | .start (.refresh raw) => raw ∈ tokens
  | .next _ (.random raw _) => raw ∈ tokens ∧ ∀ e ∈ s.shared.log, e.token ≠ some raw
  | _ => True

variable (service)

/-- A token that is found unrotated is in the hand of no other call.  When a reuse is detected, the
wallet has no unrotated token left, and none is being rotated.  The mark of a token does not
fail. -/
def Service.Undisturbed (tokens : List String) (s : Concurrent.State State Call) :
    Call → Outcome → Prop
  | .get raw, .ok => ∀ record ∈ service.record s.shared raw,
      if record.rotated then
        (∀ raw' ∈ tokens, service.record s.shared raw' ≠ some ⟨record.walletAddress, false⟩) ∧
          ∀ p ∈ s.calls, p.rotating.map (·.2) ≠ some record.walletAddress
      else ∀ p ∈ s.calls, p.rotating.map (·.1) ≠ some raw
  | .rotate _ _, .error => False
  | _, _ => True

instance (tokens : List String) (s : Concurrent.State State Call)
    (l : Concurrent.Label Request Outcome Nat) : Decidable (Regular tokens s l) :=
  match l with
  | .start (.refresh raw) => inferInstanceAs (Decidable (raw ∈ tokens))
  | .next _ (.random raw _) =>
    inferInstanceAs (Decidable (raw ∈ tokens ∧ ∀ e ∈ s.shared.log, e.token ≠ some raw))
  | .start (.login _) | .start (.logout _) | .next _ .ok | .next _ .error | .next _ (.scanned _ _)
  | .around _ => inferInstanceAs (Decidable True)

instance (tokens : List String) (s : Concurrent.State State Call) (p : Call) (outcome : Outcome) :
    Decidable (service.Undisturbed tokens s p outcome) :=
  match p, outcome with
  | .get raw, .ok => inferInstanceAs (Decidable (∀ record ∈ service.record s.shared raw,
      if record.rotated then
        (∀ raw' ∈ tokens, service.record s.shared raw' ≠ some ⟨record.walletAddress, false⟩) ∧
          ∀ p ∈ s.calls, p.rotating.map (·.2) ≠ some record.walletAddress
      else ∀ p ∈ s.calls, p.rotating.map (·.1) ≠ some raw))
  | .rotate _ _, .error => inferInstanceAs (Decidable False)
  | .get _, .error | .get _, .random _ _ | .get _, .scanned _ _ | .rotate _ _, .ok
  | .rotate _ _, .random _ _ | .rotate _ _, .scanned _ _ | .issue _ _, _ | .scan _ _, _
  | .sweepGet _ _ _ _, _ | .sweepDel _ _ _ _, _ | .del _, _ | .returned _, _ | .threw _, _ =>
    inferInstanceAs (Decidable True)

/-- The step is regular, and the call that takes it is undisturbed. -/
def Service.TokenClear (tokens : List String) (s : Concurrent.State State Call)
    (l : Concurrent.Label Request Outcome Nat) : Prop :=
  Regular tokens s l ∧ match l with
    | .next i outcome => ∀ p ∈ s.calls[i]?, service.Undisturbed tokens s p outcome
    | _ => True

instance (tokens : List String) (s : Concurrent.State State Call)
    (l : Concurrent.Label Request Outcome Nat) : Decidable (service.TokenClear tokens s l) :=
  match l with
  | .next i outcome => inferInstanceAs (Decidable (Regular tokens s (.next i outcome) ∧
      ∀ p ∈ s.calls[i]?, service.Undisturbed tokens s p outcome))
  | .start request => inferInstanceAs (Decidable (Regular tokens s (.start request) ∧ True))
  | .around n => inferInstanceAs (Decidable (Regular tokens s (.around n) ∧ True))

/-! ## The invariant -/

/-- The token was issued to the wallet. -/
def IssuedTo (log : List Event) (raw w : String) : Prop :=
  ∃ successorOf, .issued raw w successorOf ∈ log

/-- A reuse was detected for the wallet of the token after the token was issued. -/
def Revoked (log : List Event) (raw : String) : Prop :=
  ∃ w successorOf, [.issued raw w successorOf, .detected w].Sublist log

/-- The token was issued, and cannot be consumed any more. -/
def Service.Closed (s : State) (raw : String) : Prop :=
  (∃ w, IssuedTo s.log raw w) ∧ ∀ w, service.record s raw ≠ some ⟨w, false⟩

/-- Every token was issued to one wallet, a record is that of a token that was issued, a revoked
token cannot be consumed any more, and no revoked token was accepted. -/
structure Service.Sound (tokens : List String) (s : State) : Prop where
  listed : ∀ raw w, IssuedTo s.log raw w → raw ∈ tokens
  wallet : ∀ raw w w', IssuedTo s.log raw w → IssuedTo s.log raw w' → w = w'
  recorded : ∀ raw ∈ tokens, ∀ r, service.record s raw = some r → IssuedTo s.log raw r.walletAddress
  gone : ∀ raw, Revoked s.log raw → ∀ w, service.record s raw ≠ some ⟨w, false⟩
  safe : ∀ raw w successorOf,
    ¬ [.issued raw w successorOf, .detected w, .accepted raw].Sublist s.log

/-- What holds of a call: its token is one of the run; the token that it rotates was issued to the
wallet and is not revoked; and the token that it has consumed is closed. -/
def Service.CallSound (tokens : List String) (s : State) : Call → Prop
  | .get raw => raw ∈ tokens
  | .rotate raw w => IssuedTo s.log raw w ∧ ¬ Revoked s.log raw
  | .issue _ (some raw) => service.Closed s raw
  | _ => True

variable {service} {tokens : List String}

section Log

variable {log : List Event} {e : Event}

theorem concat_sublist_concat {α : Type*} {l m : List α} {x y : α}
    (h : (l ++ [x]).Sublist (m ++ [y])) : (l ++ [x]).Sublist m ∨ (l.Sublist m ∧ x = y) := by
  have h := h.reverse
  rw [List.reverse_append, List.reverse_append] at h
  rcases List.sublist_cons_iff.mp h with h | ⟨r, hr, h⟩
  · left
    rw [← List.reverse_sublist, List.reverse_append]
    exact h
  · cases hr
    exact .inr ⟨List.reverse_sublist.mp h, rfl⟩

theorem IssuedTo.append (h : IssuedTo log raw w) : IssuedTo (log ++ [e]) raw w := by
  obtain ⟨successorOf, h⟩ := h
  exact ⟨successorOf, List.mem_append_left _ h⟩

theorem issuedTo_append (h : IssuedTo (log ++ [e]) raw w) :
    IssuedTo log raw w ∨ ∃ successorOf, e = .issued raw w successorOf := by
  obtain ⟨successorOf, h⟩ := h
  rcases List.mem_append.mp h with h | h
  · exact .inl ⟨successorOf, h⟩
  · exact .inr ⟨successorOf, (List.mem_singleton.mp h).symm⟩

theorem revoked_append (h : Revoked (log ++ [e]) raw) :
    Revoked log raw ∨ ∃ w, e = .detected w ∧ IssuedTo log raw w := by
  obtain ⟨w, successorOf, h⟩ := h
  rcases concat_sublist_concat (l := [_]) h with h | ⟨h, he⟩
  · exact .inl ⟨w, successorOf, h⟩
  · exact .inr ⟨w, he.symm, successorOf, List.singleton_sublist.mp h⟩

theorem Revoked.issued (h : Revoked log raw) : ∃ w, IssuedTo log raw w := by
  obtain ⟨w, successorOf, h⟩ := h
  exact ⟨w, successorOf, h.subset (List.mem_cons_self ..)⟩

end Log

/-! ## One step keeps it -/

section Step

variable (hinj : ∀ a ∈ tokens, ∀ b ∈ tokens, service.hash a = service.hash b → a = b)
include hinj

theorem record_set_of_ne {r : Record} {ttl : Nat}
    (ht : t.redis = s.redis.set (service.stored (service.key raw)) r ttl) (hraw : raw ∈ tokens)
    (hraw' : raw' ∈ tokens) (hne : raw' ≠ raw) : service.record t raw' = service.record s raw' := by
  unfold Service.record
  rw [ht]
  apply Expiring.get_set_of_ne
  intro hkey
  apply hne
  apply hinj raw' hraw' raw hraw
  exact (String.append_right_inj _).mp ((String.append_right_inj _).mp hkey)

theorem record_set {r r' : Record} {ttl : Nat}
    (ht : t.redis = s.redis.set (service.stored (service.key raw)) r ttl) (hraw : raw ∈ tokens)
    (hraw' : raw' ∈ tokens) (h : service.record t raw' = some r') :
    (raw' = raw ∧ r' = r) ∨ (raw' ≠ raw ∧ service.record s raw' = some r') := by
  by_cases hne : raw' = raw
  · refine .inl ⟨hne, ?_⟩
    unfold Service.record at h
    rw [ht, hne] at h
    exact Expiring.get_set_self h
  · rw [record_set_of_ne hinj ht hraw hraw' hne] at h
    exact .inr ⟨hne, h⟩

/-- **A closed token stays closed.** -/
theorem Service.Closed.next {σ : Concurrent.State State Call} {i : Nat}
    (hsound : service.Sound tokens σ.shared) (hcall : service.CallSound tokens σ.shared p)
    (hreg : Regular tokens σ (.next i outcome))
    (h : service.next σ.shared p outcome = some (t, q)) (hclosed : service.Closed σ.shared raw) :
    service.Closed t raw := by
  obtain ⟨⟨w, hissued⟩, hgone⟩ := hclosed
  have hraw : raw ∈ tokens := hsound.listed raw w hissued
  rcases next_cases h with ⟨hlog, hfewer, -, -⟩ | ⟨raw', w', rfl, rfl, rfl, -⟩ |
    ⟨raw', w', rfl, rfl, rfl, -⟩ | ⟨raw', w', rfl, rfl, hlog, hset⟩ |
    ⟨raw', w', successorOf, stored, rfl, rfl, rfl, hlog, hset⟩
  · refine ⟨⟨w, ?_⟩, fun w' hr => hgone w' (hfewer raw _ hr)⟩
    rw [hlog]
    exact hissued
  · exact ⟨⟨w, hissued⟩, hgone⟩
  · exact ⟨⟨w, hissued.append⟩, hgone⟩
  · refine ⟨⟨w, ?_⟩, fun w₁ hr => ?_⟩
    · rw [hlog]
      exact hissued.append
    rcases hset with hset | ⟨hset, -⟩
    · rcases record_set hinj hset (hsound.listed raw' w' hcall.1) hraw hr with ⟨-, hr⟩ | ⟨-, hr⟩
      · cases hr
      · exact hgone w₁ hr
    · unfold Service.record at hr
      rw [hset] at hr
      exact hgone w₁ hr
  · refine ⟨⟨w, ?_⟩, fun w₁ hr => ?_⟩
    · rw [hlog]
      exact hissued.append
    obtain ⟨hraw', hnew⟩ := hreg
    rcases hset with hset | hset
    · rcases record_set hinj hset hraw' hraw hr with ⟨rfl, -⟩ | ⟨-, hr⟩
      · obtain ⟨o, ho⟩ := hissued
        exact hnew _ ho rfl
      · exact hgone w₁ hr
    · unfold Service.record at hr
      rw [hset] at hr
      exact hgone w₁ hr

omit hinj in
theorem Service.CallSound.mono (h : service.CallSound tokens s p)
    (hissued : ∀ raw w, IssuedTo s.log raw w → IssuedTo t.log raw w)
    (hrevoked : ∀ raw w, p = .rotate raw w → Revoked t.log raw → Revoked s.log raw)
    (hclosed : ∀ raw, service.Closed s raw → service.Closed t raw) :
    service.CallSound tokens t p := by
  cases p with
  | get raw => exact h
  | rotate raw w => exact ⟨hissued raw w h.1, fun hr => h.2 (hrevoked raw w rfl hr)⟩
  | issue w successorOf =>
    cases successorOf with
    | none => trivial
    | some raw => exact hclosed raw h
  | scan | sweepGet | sweepDel | del | returned | threw => trivial

omit hinj in
theorem Service.Sound.of_fewer (h : service.Sound tokens s) (hlog : t.log = s.log)
    (hfewer : ∀ raw r, service.record t raw = some r → service.record s raw = some r) :
    service.Sound tokens t where
  listed raw w hi := h.listed raw w (hlog ▸ hi)
  wallet raw w w' hi hi' := h.wallet raw w w' (hlog ▸ hi) (hlog ▸ hi')
  recorded raw hraw r hr := hlog ▸ h.recorded raw hraw r (hfewer raw r hr)
  gone raw hrev w hr := h.gone raw (hlog ▸ hrev) w (hfewer raw _ hr)
  safe raw w o hsub := h.safe raw w o (hlog ▸ hsub)

omit hinj in
theorem Service.Sound.detected (h : service.Sound tokens s)
    (hnone : ∀ raw ∈ tokens, service.record s raw ≠ some ⟨w, false⟩) :
    service.Sound tokens { s with log := s.log ++ [.detected w] } := by
  have hissued : ∀ {raw w'}, IssuedTo (s.log ++ [.detected w]) raw w' → IssuedTo s.log raw w' := by
    intro raw w' hi
    rcases issuedTo_append hi with hi | ⟨o, ho⟩
    · exact hi
    · cases ho
  refine ⟨fun raw w' hi => h.listed raw w' (hissued hi),
    fun raw w₁ w₂ hi hi' => h.wallet raw w₁ w₂ (hissued hi) (hissued hi'),
    fun raw hraw r hr => (h.recorded raw hraw r hr).append, ?_, ?_⟩
  · intro raw hrev w' hr
    rcases revoked_append hrev with hrev | ⟨w₁, he, hi⟩
    · exact h.gone raw hrev w' hr
    · cases he
      have hraw := h.listed raw w hi
      have hwallet : w' = w := h.wallet raw _ _ (h.recorded raw hraw _ hr) hi
      rw [hwallet] at hr
      exact hnone raw hraw hr
  · intro raw w' o hsub
    rcases concat_sublist_concat (l := [_, _]) hsub with hsub | ⟨-, he⟩
    · exact h.safe raw w' o hsub
    · cases he

theorem Service.Sound.accepted (h : service.Sound tokens s) (hissued : IssuedTo s.log raw w)
    (hrevoked : ¬ Revoked s.log raw) (hlog : t.log = s.log ++ [.accepted raw])
    (hset : t.redis = s.redis.set (service.stored (service.key raw)) ⟨w, true⟩ 60) :
    service.Sound tokens t := by
  have hold : ∀ {raw' w'}, IssuedTo t.log raw' w' → IssuedTo s.log raw' w' := by
    intro raw' w' hi
    rw [hlog] at hi
    rcases issuedTo_append hi with hi | ⟨o, ho⟩
    · exact hi
    · cases ho
  have hraw := h.listed raw w hissued
  refine ⟨fun raw' w' hi => h.listed raw' w' (hold hi),
    fun raw' w₁ w₂ hi hi' => h.wallet raw' w₁ w₂ (hold hi) (hold hi'), ?_, ?_, ?_⟩
  · intro raw' hraw' r hr
    rw [hlog]
    rcases record_set hinj hset hraw hraw' hr with ⟨rfl, rfl⟩ | ⟨-, hr⟩
    · exact hissued.append
    · exact (h.recorded raw' hraw' r hr).append
  · intro raw' hrev w' hr
    rw [hlog] at hrev
    rcases revoked_append hrev with hrev | ⟨w₁, he, -⟩
    · obtain ⟨w₁, hi⟩ := hrev.issued
      rcases record_set hinj hset hraw (h.listed raw' w₁ hi) hr with ⟨-, hr⟩ | ⟨-, hr⟩
      · cases hr
      · exact h.gone raw' hrev w' hr
    · cases he
  · intro raw' w' o hsub
    rw [hlog] at hsub
    rcases concat_sublist_concat (l := [_, _]) hsub with hsub | ⟨hsub, he⟩
    · exact h.safe raw' w' o hsub
    · cases he
      exact hrevoked ⟨w', o, hsub⟩

theorem Service.Sound.issued {successorOf : Option String} (h : service.Sound tokens s)
    (hraw : raw ∈ tokens) (hnew : ∀ e ∈ s.log, e.token ≠ some raw)
    (hlog : t.log = s.log ++ [.issued raw w successorOf])
    (hset : t.redis = s.redis.set (service.stored (service.key raw)) ⟨w, false⟩ service.ttl ∨
      t.redis = s.redis) : service.Sound tokens t := by
  have hunissued : ∀ w', ¬ IssuedTo s.log raw w' := by
    rintro w' ⟨o, ho⟩
    exact hnew _ ho rfl
  have hissued : ∀ {raw' w'}, IssuedTo t.log raw' w' →
      (raw' ≠ raw ∧ IssuedTo s.log raw' w') ∨ (raw' = raw ∧ w' = w) := by
    intro raw' w' hi
    rw [hlog] at hi
    rcases issuedTo_append hi with hold | ⟨o, ho⟩
    · refine .inl ⟨?_, hold⟩
      rintro rfl
      exact hunissued w' hold
    · cases ho
      exact .inr ⟨rfl, rfl⟩
  have hrecord : ∀ raw' ∈ tokens, ∀ r, service.record t raw' = some r →
      (raw' = raw ∧ r = ⟨w, false⟩) ∨ service.record s raw' = some r := by
    intro raw' hraw' r hr
    rcases hset with hset | hset
    · exact (record_set hinj hset hraw hraw' hr).imp_right And.right
    · unfold Service.record at hr
      rw [hset] at hr
      exact .inr hr
  refine ⟨?_, ?_, ?_, ?_, ?_⟩
  · intro raw' w' hi
    rcases hissued hi with ⟨-, hi⟩ | ⟨rfl, -⟩
    · exact h.listed raw' w' hi
    · exact hraw
  · intro raw' w₁ w₂ hi₁ hi₂
    rcases hissued hi₁ with ⟨hne, hi₁⟩ | ⟨heq, rfl⟩ <;>
      rcases hissued hi₂ with ⟨hne', hi₂⟩ | ⟨heq', rfl⟩
    · exact h.wallet raw' w₁ w₂ hi₁ hi₂
    · exact absurd heq' hne
    · exact absurd heq hne'
    · rfl
  · intro raw' hraw' r hr
    rw [hlog]
    rcases hrecord raw' hraw' r hr with ⟨rfl, rfl⟩ | hr
    · exact ⟨successorOf, List.mem_append_right _ (List.mem_singleton_self _)⟩
    · exact (h.recorded raw' hraw' r hr).append
  · intro raw' hrev w' hr
    rw [hlog] at hrev
    rcases revoked_append hrev with hrev | ⟨w₁, he, -⟩
    · obtain ⟨w₁, hi⟩ := hrev.issued
      rcases hrecord raw' (h.listed raw' w₁ hi) _ hr with ⟨rfl, -⟩ | hr
      · exact hunissued w₁ hi
      · exact h.gone raw' hrev w' hr
    · cases he
  · intro raw' w' o hsub
    rw [hlog] at hsub
    rcases concat_sublist_concat (l := [_, _]) hsub with hsub | ⟨-, he⟩
    · exact h.safe raw' w' o hsub
    · cases he

omit hinj in
theorem outcome_of_get (h : service.next s (.get raw) outcome = some (t, q))
    (hq : ∀ message, q ≠ .threw message) : outcome = .ok := by
  cases outcome with
  | ok => rfl
  | error =>
    cases h
    exact absurd rfl (hq _)
  | random | scanned => cases h

/-- **What a step of a call keeps.** -/
theorem sound_next {σ : Concurrent.State State Call} {i : Nat}
    (hsound : service.Sound tokens σ.shared)
    (hcall : service.CallSound tokens σ.shared p) (hreg : Regular tokens σ (.next i outcome))
    (hclear : service.Undisturbed tokens σ p outcome)
    (h : service.next σ.shared p outcome = some (t, q)) :
    service.Sound tokens t ∧ service.CallSound tokens t q ∧
      ∀ p' ∈ σ.calls, service.CallSound tokens σ.shared p' → service.CallSound tokens t p' := by
  have hclosed : ∀ raw, service.Closed σ.shared raw → service.Closed t raw := fun _ hc =>
    hc.next hinj hsound hcall hreg h
  rcases next_cases h with ⟨hlog, hfewer, -, hq⟩ | ⟨raw, w, rfl, rfl, rfl, hrecord⟩ |
    ⟨raw, w, rfl, rfl, rfl, hrecord⟩ | ⟨raw, w, rfl, rfl, hlog, hset⟩ |
    ⟨raw, w, successorOf, stored, rfl, rfl, rfl, hlog, hset⟩
  · refine ⟨hsound.of_fewer hlog hfewer, ?_, fun p' hp' hcall' => ?_⟩
    · cases q with
      | issue | get | rotate => cases hq
      | scan | sweepGet | sweepDel | del | returned | threw => trivial
    · exact hcall'.mono (fun _ _ hi => hlog ▸ hi) (fun _ _ _ hr => hlog ▸ hr) hclosed
  · have hissued := hsound.recorded raw hcall _ hrecord
    exact ⟨hsound, ⟨hissued, fun hr => hsound.gone raw hr w hrecord⟩, fun _ _ hcall' => hcall'⟩
  · -- nobody is left whom the detection could concern
    obtain ⟨hnone, hfree⟩ : (∀ raw' ∈ tokens, service.record σ.shared raw' ≠ some ⟨w, false⟩) ∧
        ∀ p ∈ σ.calls, p.rotating.map (·.2) ≠ some w := by
      cases outcome_of_get h nofun
      exact hclear ⟨w, true⟩ hrecord
    refine ⟨hsound.detected hnone, trivial, fun p' hp' hcall' => ?_⟩
    refine hcall'.mono (fun _ _ hi => hi.append) ?_ hclosed
    rintro raw' w' rfl hrev
    rcases revoked_append hrev with hrev | ⟨w₁, he, hi⟩
    · exact hrev
    · cases he
      have hwallet : w' = w := hsound.wallet raw' _ _ hcall'.1 hi
      exact absurd (congrArg some hwallet) (hfree _ hp')
  · rcases hset with hset | ⟨-, rfl⟩
    · have hraw := hsound.listed raw w hcall.1
      refine ⟨hsound.accepted hinj hcall.1 hcall.2 hlog hset, ⟨⟨w, ?_⟩, fun w' hr => ?_⟩,
        fun p' hp' hcall' => ?_⟩
      · rw [hlog]
        exact hcall.1.append
      · rcases record_set hinj hset hraw hraw hr with ⟨-, hr⟩ | ⟨hne, -⟩
        · cases hr
        · exact hne rfl
      · refine hcall'.mono (fun _ _ hi => hlog ▸ hi.append) ?_ hclosed
        intro raw' w' _ hrev
        rw [hlog] at hrev
        rcases revoked_append hrev with hrev | ⟨w₁, he, -⟩
        · exact hrev
        · cases he
    · exact hclear.elim
  · refine ⟨hsound.issued hinj hreg.1 hreg.2 hlog hset, trivial, fun p' hp' hcall' => ?_⟩
    refine hcall'.mono (fun _ _ hi => hlog ▸ hi.append) ?_ hclosed
    intro raw' w' _ hrev
    rw [hlog] at hrev
    rcases revoked_append hrev with hrev | ⟨w₁, he, -⟩
    · exact hrev
    · cases he

end Step

/-! ## Runs -/

/-- A token is closed once it can no longer be consumed; a call has it in hand from when it has
found it until it is marked. -/
def Service.acceptView (service : Service) : View State Call String where
  closed := service.Closed
  log := State.accepted
  inHand p := p.rotating.map fun x => (x.1, false)

/-- The same, with the token in hand until its successor is issued. -/
def Service.succeedView (service : Service) : View State Call String where
  closed := service.Closed
  log := State.succeeded
  inHand
    | .rotate raw _ | .issue _ (some raw) => some (raw, false)
    | _ => none

section Run

variable {σ : Concurrent.State State Call}

theorem sound_of_reach (hinj : ∀ a ∈ tokens, ∀ b ∈ tokens, service.hash a = service.hash b → a = b)
    (h : service.machine.Reach (service.TokenClear tokens) σ) :
    service.Sound tokens σ.shared ∧ ∀ p ∈ σ.calls, service.CallSound tokens σ.shared p := by
  refine Concurrent.Reach.sharedInvariant (I := service.Sound tokens)
    (J := service.CallSound tokens) ?_ ?_ ?_ ?_ h
  · rintro s rfl
    refine ⟨?_, ?_, ?_, ?_, ?_⟩
    · rintro raw w ⟨o, ho⟩
      cases ho
    · rintro raw w w' ⟨o, ho⟩
      cases ho
    · intro raw _ r hr
      cases hr
    · rintro raw ⟨w, o, hsub⟩
      cases hsub
    · intro raw w o hsub
      cases hsub
  · intro σ request q hl hsound hq
    cases request with
    | login w | logout raw =>
      cases hq
      exact ⟨hsound, trivial, fun _ _ hp => hp⟩
    | refresh raw =>
      cases hq
      exact ⟨hsound, hl.1, fun _ _ hp => hp⟩
  · intro σ i outcome p q hl hp hsound hcall hq
    exact sound_next hinj hsound hcall hl.1 (hl.2 p hp) hq
  · intro σ n s _ hsound hs
    cases hs
    have hfewer : ∀ raw r, service.record { σ.shared with redis := σ.shared.redis.pass n }
      raw = some r →
        service.record σ.shared raw = some r := fun _ _ hr => Expiring.get_of_pass hr
    refine ⟨hsound.of_fewer rfl hfewer, fun p _ hp => ?_⟩
    exact hp.mono (fun _ _ hi => hi) (fun _ _ _ hr => hr) fun raw hc =>
      ⟨hc.1, fun w hr => hc.2 w (hfewer raw _ hr)⟩

theorem inHand_of_not_consuming (service : Service) (h : p.consuming = false) :
    service.acceptView.inHand p = none ∧ service.succeedView.inHand p = none := by
  cases p with
  | rotate => cases h
  | issue w successorOf =>
    cases successorOf with
    | none => exact ⟨rfl, rfl⟩
    | some raw => cases h
  | get | scan | sweepGet | sweepDel | del | returned | threw => exact ⟨rfl, rfl⟩

theorem not_consuming_of_passive (h : p.passive = true) : p.consuming = false := by
  cases p with
  | issue | get | rotate => cases h
  | scan | sweepGet | sweepDel | del | returned | threw => rfl

/-- **What a step of a call does** with a token in hand. -/
theorem moves_next {i : Nat}
    (hinj : ∀ a ∈ tokens, ∀ b ∈ tokens, service.hash a = service.hash b → a = b)
    (hsound : service.Sound tokens σ.shared)
    (hcalls : ∀ p ∈ σ.calls, service.CallSound tokens σ.shared p) (hp : σ.calls[i]? = some p)
    (hreg : Regular tokens σ (.next i outcome)) (hclear : service.Undisturbed tokens σ p outcome)
    (h : service.next σ.shared p outcome = some (t, q)) :
    service.acceptView.Move σ p (t, q) ∧ service.succeedView.Move σ p (t, q) := by
  have hcall := hcalls p (List.mem_of_getElem? hp)
  obtain ⟨-, hcall', -⟩ := sound_next hinj hsound hcall hreg hclear h
  have haccepted : ∀ {e}, t.log = σ.shared.log ++ [e] →
      t.accepted = σ.shared.accepted ++ (State.mk t.redis [e]).accepted := by
    intro e hlog
    unfold State.accepted
    rw [hlog, List.filterMap_append]
  have hsucceeded : ∀ {e}, t.log = σ.shared.log ++ [e] →
      t.succeeded = σ.shared.succeeded ++ (State.mk t.redis [e]).succeeded := by
    intro e hlog
    unfold State.succeeded
    rw [hlog, List.filterMap_append]
  rcases next_cases h with ⟨hlog, -, hcons, hpass⟩ | ⟨raw, w, rfl, rfl, rfl, hrecord⟩ |
    ⟨raw, w, rfl, rfl, rfl, hrecord⟩ | ⟨raw, w, rfl, rfl, hlog, hset⟩ |
    ⟨raw, w, successorOf, stored, rfl, rfl, rfl, hlog, hset⟩
  · obtain ⟨hp₁, hp₂⟩ := inHand_of_not_consuming service hcons
    obtain ⟨hq₁, hq₂⟩ :=
      inHand_of_not_consuming service (not_consuming_of_passive hpass)
    refine ⟨.stay ?_ (hq₁.trans hp₁.symm), .stay ?_ (hq₂.trans hp₂.symm)⟩
    · show t.log.filterMap _ = _
      rw [hlog]
      rfl
    · show t.log.filterMap _ = _
      rw [hlog]
      rfl
  · cases outcome_of_get h nofun
    have hfree : ∀ p ∈ σ.calls, p.rotating.map (·.1) ≠ some raw := hclear ⟨w, false⟩ hrecord
    have hopen : ¬ service.Closed σ.shared raw := fun hc => hc.2 w hrecord
    refine ⟨.take raw rfl rfl rfl hopen ?_, .take raw rfl rfl rfl hopen ?_⟩
    · intro p hmem acted hhand
      cases p with
      | rotate raw' w' =>
        have heq : raw' = raw := congrArg Prod.fst (Option.some.inj hhand)
        exact hfree (.rotate raw' w') hmem (congrArg some heq)
      | issue | get | scan | sweepGet | sweepDel | del | returned | threw => cases hhand
    · intro p hmem acted hhand
      cases p with
      | rotate raw' w' =>
        have heq : raw' = raw := congrArg Prod.fst (Option.some.inj hhand)
        exact hfree (.rotate raw' w') hmem (congrArg some heq)
      | issue w' successorOf =>
        cases successorOf with
        | none => cases hhand
        | some raw' =>
          -- a token whose successor is being issued is closed already
          cases hhand
          exact hopen (hcalls _ hmem)
      | get | scan | sweepGet | sweepDel | del | returned | threw => cases hhand
  · exact ⟨.stay ((haccepted rfl).trans (List.append_nil _)) rfl,
      .stay ((hsucceeded rfl).trans (List.append_nil _)) rfl⟩
  · exact ⟨.actAndClose raw (haccepted hlog) rfl rfl hcall',
      .stay ((hsucceeded hlog).trans (List.append_nil _)) rfl⟩
  · refine ⟨.stay ((haccepted hlog).trans (List.append_nil _)) rfl, ?_⟩
    cases successorOf with
    | none => exact .stay ((hsucceeded hlog).trans (List.append_nil _)) rfl
    | some raw' =>
      exact .actAndClose raw' (hsucceeded hlog) rfl rfl (hcall.next hinj hsound hcall hreg h)

theorem once_of_reach {v : View State Call String}
    (hinj : ∀ a ∈ tokens, ∀ b ∈ tokens, service.hash a = service.hash b → a = b)
    (hclosed : v.closed = service.Closed) (hfresh : v.log .fresh = [])
    (htime : ∀ (s : State) n, v.log { s with redis := s.redis.pass n } = v.log s)
    (hstart : ∀ s request q, service.program.start s request = some q → v.inHand q.2 = none)
    (hmove : ∀ (s : Concurrent.State State Call) i outcome p q, service.Sound tokens s.shared →
      (∀ p ∈ s.calls, service.CallSound tokens s.shared p) → s.calls[i]? = some p →
      Regular tokens s (.next i outcome) → service.Undisturbed tokens s p outcome →
      service.next s.shared p outcome = some q → v.Move s p q)
    (h : service.machine.Reach (service.TokenClear tokens) σ) : (v.log σ.shared).Nodup := by
  refine (Reach.once (v := v) ?_ ?_ ?_ ?_ h).once
  · rintro s rfl
    exact hfresh
  · intro s request q _ hq
    refine ⟨hstart _ _ _ hq, ?_⟩
    cases request <;> cases hq <;> exact ⟨rfl, fun _ hk => hk⟩
  · intro s i outcome p q hreach hl hp hq
    obtain ⟨hsound, hcalls⟩ := sound_of_reach hinj hreach
    refine ⟨hmove s i outcome p q hsound hcalls hp hl.1 (hl.2 p hp) hq, ?_⟩
    rw [hclosed]
    exact fun raw hc => hc.next hinj hsound (hcalls p (List.mem_of_getElem? hp)) hl.1 hq
  · intro s n t _ ht
    cases ht
    refine ⟨htime s.shared n, ?_⟩
    rw [hclosed]
    exact fun raw hc => ⟨hc.1, fun w hr => hc.2 w (Expiring.get_of_pass hr)⟩

/-- **Rotation.**  Where the hash tells the tokens of the run apart and no call is disturbed, a
token is accepted at most once and has at most one successor, and no token is accepted once a reuse
was detected for the wallet that it had been issued to. -/
theorem refresh_once_of_reach
    (hinj : ∀ a ∈ tokens, ∀ b ∈ tokens, service.hash a = service.hash b → a = b)
    (h : service.machine.Reach (service.TokenClear tokens) σ) :
    (∀ raw, σ.shared.accepted.count raw ≤ 1) ∧ (∀ raw, σ.shared.succeeded.count raw ≤ 1) ∧
      ∀ raw w successorOf,
        ¬ [.issued raw w successorOf, .detected w, .accepted raw].Sublist σ.shared.log := by
  refine ⟨?_, ?_, (sound_of_reach hinj h).1.safe⟩
  · apply List.nodup_iff_count_le_one.mp
    refine once_of_reach (v := service.acceptView) hinj rfl rfl (fun _ _ => rfl) ?_ ?_ h
    · intro s request q hq
      cases request <;> cases hq <;> rfl
    · intro s i outcome p q hsound hcalls hp hreg hclear hq
      exact (moves_next hinj hsound hcalls hp hreg hclear hq).1
  · apply List.nodup_iff_count_le_one.mp
    refine once_of_reach (v := service.succeedView) hinj rfl rfl (fun _ _ => rfl) ?_ ?_ h
    · intro s request q hq
      cases request <;> cases hq <;> rfl
    · intro s i outcome p q hsound hcalls hp hreg hclear hq
      exact (moves_next hinj hsound hcalls hp hreg hclear hq).2

end Run

/-- The service with its default prefix and lifetime; the hash is given for three tokens. -/
def development : Service where
  keyPrefix := "niffy:development:"
  hash raw :=
    if raw = "a" then "ca978112ca1bbdcafac231b39a23dc4da786eff8147c4e72b9807785afee48bb"
    else if raw = "b" then "3e23e8160039594a33894f6564e1b1348bbd7a0088d42c4acb73eeaed59c009d"
    else "2e7d2c03a9507ae265ecf5b5356885a53393a2029d241394997265a1a25aefc6"
  ttl := 7 * 24 * 3600

/-- The token of Alice is rotated, its successor is revoked by a logout, and the first token is
presented again. -/
theorem refresh_once_rotated : ∃ σ,
    development.machine.Reach (development.TokenClear ["a", "b", "c"]) σ ∧
      σ.shared.log = [.issued "a" "Alice" none, .accepted "a", .issued "b" "Alice" (some "a"),
        .detected "Alice"] ∧
      σ.calls[4]? = some (.threw "Invalid or expired refresh token") ∧
      σ.shared.accepted.count "a" ≤ 1 := by
  obtain ⟨σ, h, hlog, hthrew⟩ : ∃ σ,
      development.machine.Reach (development.TokenClear ["a", "b", "c"]) σ ∧
        σ.shared.log = [.issued "a" "Alice" none, .accepted "a", .issued "b" "Alice" (some "a"),
          .detected "Alice"] ∧
        σ.calls[4]? = some (.threw "Invalid or expired refresh token") :=
    Machine.exists_reach_of_runAll
      [.start (.login "Alice"), .next 0 (.random "a" true), .start (.refresh "a"), .next 1 .ok,
        .next 1 .ok, .next 1 (.random "b" true), .start (.logout "b"), .next 2 .ok, .around 10,
        .start (.refresh "a"), .next 3 .ok, .next 3 (.scanned "0" []), .start (.refresh "b"),
        .next 4 .ok]
      (s := ⟨.fresh, []⟩) ⟨rfl, rfl⟩ (by decide)
  exact ⟨σ, h, hlog, hthrew, (refresh_once_of_reach (by decide) h).1 "a"⟩

/-- Two calls read the record of a token before either of them has marked it: both are accepted, and
the token has two successors.  And where a reuse is detected and the sweep is done, the successor of
the token is accepted nevertheless: all keys begin with the prefix of the client, and `SCAN` finds
none that begins with `rt:`. -/
theorem accepted_twice_and_after_reuse :
    (∃ σ, development.machine.Reach (Regular ["a", "b", "c"]) σ ∧
      σ.shared.accepted.count "a" = 2 ∧ σ.shared.succeeded.count "a" = 2) ∧
    ∃ σ, development.machine.Reach (Regular ["a", "b", "c"]) σ ∧
      σ.calls[2]? = some (.threw "Refresh token reuse detected — session revoked") ∧
        [.issued "b" "Alice" (some "a"), .detected "Alice", .accepted "b"].Sublist
        σ.shared.log := by
  refine ⟨?_, ?_⟩
  · exact Machine.exists_reach_of_runAll
      [.start (.login "Alice"), .next 0 (.random "a" true), .start (.refresh "a"),
        .start (.refresh "a"), .next 1 .ok, .next 2 .ok, .next 1 .ok, .next 2 .ok,
        .next 1 (.random "b" true), .next 2 (.random "c" true)]
      (s := ⟨.fresh, []⟩) ⟨rfl, rfl⟩ (by decide)
  · exact Machine.exists_reach_of_runAll
      [.start (.login "Alice"), .next 0 (.random "a" true), .start (.refresh "a"), .next 1 .ok,
        .next 1 .ok, .next 1 (.random "b" true), .start (.refresh "a"), .next 2 .ok,
        .next 2 (.scanned "0" []), .start (.refresh "b"), .next 3 .ok, .next 3 .ok]
      (s := ⟨.fresh, []⟩) ⟨rfl, rfl⟩ (by decide)

end NiffyInsure.Backend.RefreshTokens
