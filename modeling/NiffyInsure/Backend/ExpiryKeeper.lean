import Mathlib.Data.List.Sort
import NiffyInsure.Expiry
import NiffyInsure.Lib.Custody
import NiffyInsure.Lib.JsString

/-!
# The policy expiry keeper

Every 30 seconds a run of the keeper (`policy-expiry-keeper.service.ts`) selects the active rows of
which the term is over, has the contract process expired policies, without saying which, and then
writes the rows that it has selected, each followed by one webhook for each subscriber.  Any step
can fail, and runs overlap.

The contract is the one of `processExpiredOne`.  It has no entrypoint `process_expired_policies` of
its own: whether there is one, and which policies it processes, is a parameter.

* `inactive_of_batch`: what a batch leaves inactive.
* `deactivated_eq_nil`: without the entrypoint the keeper writes nothing.
* `mirrored_of_reach`: what the keeper deactivates is inactive in the contract and has one webhook
  for each subscriber, as long as a call processes what was selected and is due, no policy is
  selected while another run is about to write it or made active again afterwards, and every webhook
  is enqueued.
-/

namespace NiffyInsure.Backend.ExpiryKeeper

open Custody

/-! ## The data -/

/-- The columns of a policy that the keeper looks at. -/
structure Row where
  policyId : Nat
  holderAddress : Address
  isActive : Bool
  endLedger : Nat
  deletedAt : Option Nat
  deriving DecidableEq

/-- The primary key, `holderAddress:policyId`. -/
def Row.id (row : Row) : PolicyLookupKey := ⟨row.holderAddress, row.policyId⟩

/-- The payload of a webhook. -/
structure Payload where
  policyId : Nat
  holderAddress : Address
  expiryLedger : Nat
  txHash : String
  deriving DecidableEq

structure Job where
  targetUrl : String
  eventType : String
  idempotencyKey : String
  payload : Payload
  deriving DecidableEq

/-- The policy that a webhook is about, and the subscriber. -/
structure Notice where
  id : PolicyLookupKey
  targetUrl : String
  deriving DecidableEq

def Job.notice (job : Job) : Notice :=
  ⟨⟨job.payload.holderAddress, job.payload.policyId⟩, job.targetUrl⟩

/-- A row that the keeper has set to inactive, and the contract after the call of that run. -/
structure Deactivation where
  id : PolicyLookupKey
  after : State

/-- The contract, the table of the policies, the time, the circuit breaker, the webhooks that were
enqueued, and the rows that the keeper has set to inactive, which nothing reads. -/
structure World where
  chain : State
  policies : List Row
  now : Nat
  consecutiveFailures : Nat
  breakerOpenUntil : Nat
  enqueued : List Job
  deactivated : List Deactivation

def BATCH_SIZE : Nat := 10
def BREAKER_THRESHOLD : Nat := 3
def BREAKER_COOLDOWN_MS : Nat := 5 * 60000

/-- Which policies `process_expired_policies` processes for a limit, if the contract has it; the
variable with the subscribers; and the texts of the addresses. -/
structure Keeper where
  process_expired_policies : Option (State → Nat → List PolicyLookupKey)
  POLICY_EXPIRED_WEBHOOK_URLS : String
  strkey : Address → String

/-- What a run waits for.  `update` and `add` keep the contract after the call, the rows that are
left and the number of all of them. -/
inductive Run where
  | getLatestLedger
  | findMany (currentLedger : Nat)
  | processExpiredPolicies (expired : List Row)
  | update (txHash : String) (after : State) (rest : List Row) (length : Nat)
  | add (txHash : String) (after : State) (p : Row) (urls : List String) (rest : List Row)
      (length : Nat)
  | returned (n : Nat)

/-- What is waited for is done or fails.  The transaction is confirmed, or it is applied and the
keeper gives up before it sees that. -/
inductive Outcome where
  | ok
  | failed
  | confirmed (txHash : String)
  | timedOut

/-- The contract and the database change, and time passes. -/
inductive Around where
  | chain (chain : State)
  | policies (rows : List Row)
  | tick (ms : Nat)

/-! ## The call of the contract -/

/-- One round for each policy.  A trap ends the call. -/
def processBatch : List PolicyLookupKey → State → Result State
  | [], s => .ok s
  | id :: rest, s => do
    let (_, s₁) ← processExpiredOne s id.holder id.policyId
    processBatch rest s₁

variable (keeper : Keeper)

/-- The policies that a call processes: no more than the limit. -/
def Keeper.batch (chain : State) (limit : Nat) : List PolicyLookupKey :=
  (keeper.process_expired_policies.elim [] fun pick => pick chain limit).take limit

/-- The contract after a call, if the call can succeed. -/
def Keeper.processExpiredPolicies (chain : State) (limit : Nat) : Option State :=
  if keeper.process_expired_policies.isSome then
    (processBatch (keeper.batch chain limit) chain).toOption
  else none

/-! ## A run -/

/-- `findMany`. -/
def World.expired (w : World) (currentLedger : Nat) : List Row :=
  ((w.policies.filter fun row =>
    row.isActive && row.deletedAt.isNone && decide (row.endLedger < currentLedger)).insertionSort
      (·.endLedger ≤ ·.endLedger)).take BATCH_SIZE

/-- `update`. -/
def World.update (w : World) (id : PolicyLookupKey) (after : State) : World :=
  { w with
    policies := w.policies.map fun row =>
      if row.id = id then { row with isActive := false } else row
    deactivated := w.deactivated ++ [⟨id, after⟩] }

/-- The `catch`. -/
def World.fail (w : World) : World × Run :=
  let consecutiveFailures := w.consecutiveFailures + 1
  if BREAKER_THRESHOLD ≤ consecutiveFailures then
    ({ w with breakerOpenUntil := w.now + BREAKER_COOLDOWN_MS, consecutiveFailures := 0 },
      .returned 0)
  else ({ w with consecutiveFailures }, .returned 0)

def Keeper.getSubscriberUrls : List String :=
  ((keeper.POLICY_EXPIRED_WEBHOOK_URLS.toList.splitOn ',').map
    (Js.trimString ∘ String.ofList)).filter (· ≠ "")

/-- The text of the primary key. -/
def Keeper.idText (id : PolicyLookupKey) : String :=
  keeper.strkey id.holder ++ ":" ++ toString id.policyId

def Keeper.job (p : Row) (txHash targetUrl : String) : Job where
  targetUrl := targetUrl
  eventType := "policy.expired"
  idempotencyKey := "policy.expired:" ++ keeper.idText p.id ++ ":" ++
    String.ofList ((Js.base64url targetUrl).toList.take 16)
  payload := ⟨p.policyId, p.holderAddress, p.endLedger, txHash⟩

def World.add (w : World) (job : Job) : World := { w with enqueued := w.enqueued ++ [job] }

/-- While the circuit breaker is open, a run is skipped. -/
def start (w : World) (_ : Unit) : Option (World × Run) :=
  some (w, if w.now < w.breakerOpenUntil then .returned 0 else .getLatestLedger)

def Keeper.next (w : World) : Run → Outcome → Option (World × Run)
  | .getLatestLedger, .ok => some (w, .findMany w.chain.sequence)
  | .findMany currentLedger, .ok =>
    let expired := w.expired currentLedger
    some (w, if expired = [] then .returned 0 else .processExpiredPolicies expired)
  | .processExpiredPolicies expired, .confirmed txHash =>
    (keeper.processExpiredPolicies w.chain BATCH_SIZE).map fun chain =>
      ({ w with chain, consecutiveFailures := 0 }, .update txHash chain expired expired.length)
  | .processExpiredPolicies _, .timedOut =>
    (keeper.processExpiredPolicies w.chain BATCH_SIZE).map fun chain => { w with chain }.fail
  | .update _ _ [] length, .ok => some (w, .returned length)
  | .update txHash after (p :: rest) length, .ok =>
    -- a row that is gone is an error
    if p.id ∈ w.policies.map Row.id then
      some (w.update p.id after, .add txHash after p keeper.getSubscriberUrls rest length)
    else some w.fail
  | .add txHash after _ [] rest length, .ok => some (w, .update txHash after rest length)
  | .add txHash after p (url :: urls) rest length, .ok =>
    some (w.add (keeper.job p txHash url), .add txHash after p urls rest length)
  | .getLatestLedger, .failed | .findMany _, .failed | .processExpiredPolicies _, .failed
  | .update _ _ (_ :: _) _, .failed | .add _ _ _ (_ :: _) _ _, .failed => some w.fail
  | _, _ => none

/-- No two rows have the same primary key. -/
def World.around (w : World) : Around → Option World
  | .chain chain => some { w with chain }
  | .policies rows =>
    if (rows.map Row.id).Nodup then some { w with policies := rows } else none
  | .tick ms => some { w with now := w.now + ms }

def Keeper.program : Concurrent.Program World Run Unit Outcome Around where
  start := start
  next := keeper.next
  around := World.around

/-- Each row is as the contract has its policy. -/
def World.Mirrors (w : World) : Prop :=
  ∀ row ∈ w.policies, row.deletedAt = none →
    ∃ policy ∈ w.chain.getPolicy row.holderAddress row.policyId,
      policy.isActive = row.isActive ∧ policy.endLedger = row.endLedger

/-- The runs over a contract and a table that mirrors it. -/
def Keeper.machine (chain : State) :=
  keeper.program.machine fun w => w.chain = chain ∧ (w.policies.map Row.id).Nodup ∧ w.Mirrors ∧
    w.enqueued = [] ∧ w.deactivated = []

/-! ## What is required of a run -/

/-- The policy is not active in the contract. -/
def Inactive (chain : State) (id : PolicyLookupKey) : Prop :=
  ∀ policy ∈ chain.getPolicy id.holder id.policyId, policy.isActive = false

/-- The term of the policy and the grace period after it are over. -/
def Due (chain : State) (id : PolicyLookupKey) : Prop :=
  ∃ policy ∈ chain.getPolicy id.holder id.policyId, chain.GraceFits policy ∧ chain.Lapsed policy

/-- The policies that a run has selected and not written yet. -/
def Run.selected : Run → List PolicyLookupKey
  | .processExpiredPolicies rows | .update _ _ rows _ | .add _ _ _ _ rows _ => rows.map Row.id
  | _ => []

/-- The webhooks that a run has yet to enqueue for the row that it has written. -/
def Run.toAdd : Run → List Notice
  | .add _ _ p urls _ _ => urls.map (Notice.mk p.id)
  | _ => []

/-- A policy is selected by one run at a time, a call that is confirmed leaves every policy inactive
that the run has selected (it is inactive before, or due and in the batch), and every webhook is
enqueued. -/
def Keeper.Undisturbed (s : Concurrent.State World Run) : Run → Outcome → Prop
  | .findMany currentLedger, .ok =>
    ∀ row ∈ s.shared.expired currentLedger, ∀ p ∈ s.calls, row.id ∉ p.selected
  | .processExpiredPolicies expired, .confirmed _ =>
    ∀ row ∈ expired, Inactive s.shared.chain row.id ∨
      row.id ∈ keeper.batch s.shared.chain BATCH_SIZE ∧ Due s.shared.chain row.id
  | .add .., .failed => False
  | _, _ => True

/-- The step is undisturbed, and no row is made active again that the keeper has deactivated. -/
def Keeper.Clear (s : Concurrent.State World Run) : Concurrent.Label Unit Outcome Around → Prop
  | .start _ => True
  | .next i outcome => ∀ p ∈ s.calls[i]?, keeper.Undisturbed s p outcome
  | .around (.policies rows) =>
    ∀ row ∈ rows, row.id ∈ s.shared.deactivated.map Deactivation.id → row.isActive = false
  | .around _ => True

section Decide

instance (chain : State) (id : PolicyLookupKey) : Decidable (Inactive chain id) :=
  inferInstanceAs (Decidable (∀ policy ∈ chain.getPolicy id.holder id.policyId, _))

instance (chain : State) (policy : Policy) : Decidable (chain.GraceFits policy) :=
  inferInstanceAs (Decidable (_ ≤ _))

instance (chain : State) (policy : Policy) : Decidable (chain.Lapsed policy) :=
  inferInstanceAs (Decidable (_ ≤ _))

instance (chain : State) (id : PolicyLookupKey) : Decidable (Due chain id) :=
  inferInstanceAs (Decidable (∃ policy ∈ chain.getPolicy id.holder id.policyId, _))

instance (w : World) : Decidable w.Mirrors :=
  inferInstanceAs (Decidable (∀ row ∈ w.policies, row.deletedAt = none → ∃ policy ∈
    w.chain.getPolicy row.holderAddress row.policyId, _))

instance (s : Concurrent.State World Run) (p : Run) (outcome : Outcome) :
    Decidable (keeper.Undisturbed s p outcome) :=
  match p, outcome with
  | .findMany currentLedger, .ok => inferInstanceAs (Decidable
      (∀ row ∈ s.shared.expired currentLedger, ∀ p ∈ s.calls, row.id ∉ p.selected))
  | .processExpiredPolicies expired, .confirmed _ => inferInstanceAs (Decidable
      (∀ row ∈ expired, Inactive s.shared.chain row.id ∨
        row.id ∈ keeper.batch s.shared.chain BATCH_SIZE ∧ Due s.shared.chain row.id))
  | .add .., .failed => inferInstanceAs (Decidable False)
  | .getLatestLedger, _ | .update .., _ | .returned _, _ | .findMany _, .failed
  | .findMany _, .confirmed _ | .findMany _, .timedOut | .processExpiredPolicies _, .ok
  | .processExpiredPolicies _, .failed | .processExpiredPolicies _, .timedOut | .add .., .ok
  | .add .., .confirmed _ | .add .., .timedOut => inferInstanceAs (Decidable True)

instance (s : Concurrent.State World Run) (l : Concurrent.Label Unit Outcome Around) :
    Decidable (keeper.Clear s l) :=
  match l with
  | .next i outcome =>
    inferInstanceAs (Decidable (∀ p ∈ s.calls[i]?, keeper.Undisturbed s p outcome))
  | .around (.policies rows) => inferInstanceAs (Decidable
      (∀ row ∈ rows, row.id ∈ s.shared.deactivated.map Deactivation.id → row.isActive = false))
  | .start _ | .around (.chain _) | .around (.tick _) => inferInstanceAs (Decidable True)

end Decide

/-! ## A batch -/

section Batch

variable {before after : State} {id : PolicyLookupKey} {ids : List PolicyLookupKey}
  {holder : Address} {policyId : Nat} {counted : Bool}

theorem inactive_of_same (h : SameKind .policy before after) (hid : Inactive before id) :
    Inactive after id := by
  intro policy hpolicy
  rw [getPolicy_of_same h] at hpolicy
  exact hid policy hpolicy

theorem inactive_of_round (h : processExpiredOne before holder policyId = .ok (counted, after))
    (hid : Inactive before id) : Inactive after id := by
  obtain hframe | ⟨ended, -, -, -, hrec, -⟩ := processExpiredOne_eq_ok h
  · exact inactive_of_same (hframe.sameKind rfl) hid
  · intro policy hpolicy
    rw [getPolicy_of_write hrec] at hpolicy
    split at hpolicy
    · cases hpolicy
      rfl
    · exact hid policy hpolicy

theorem inactive_of_own_round
    (h : processExpiredOne before id.holder id.policyId = .ok (counted, after))
    (hdue : Due before id) : Inactive after id := by
  obtain ⟨policy, hget, hfits, hlapsed⟩ := hdue
  have hover : policy.endLedger ≤ before.sequence := le_trans (Nat.le_add_right ..) hlapsed
  cases keeperRound_of_eq_ok h with
  | missing hnone =>
    rw [hnone] at hget
    cases hget
  | early hget' hearly =>
    rw [hget'] at hget
    cases hget
    omega
  | waiting hget' _ hwaits =>
    rw [hget'] at hget
    cases hget
    obtain ⟨hinactive, -⟩ | ⟨-, ⟨hnot, -⟩ | ⟨-, hnot, -⟩⟩ := hwaits
    · refine inactive_of_same ((frame_publishPolicyExpiredIfDue ..).sameKind rfl) ?_
      intro other hother
      rw [hget'] at hother
      cases hother
      exact hinactive
    · exact absurd hfits hnot
    · exact absurd hlapsed hnot
  | lapsed hget' _ _ hrec =>
    intro other hother
    rw [getPolicy_of_write hrec, if_pos ⟨rfl, rfl⟩] at hother
    cases hother
    rfl

theorem due_of_round (h : processExpiredOne before holder policyId = .ok (counted, after))
    (hdue : Due before id) : Due after id ∨ Inactive after id := by
  obtain ⟨policy, hget, hfits, hlapsed⟩ := hdue
  have hframe := frame_processExpiredOne h
  have hgrace : after.getGracePeriodLedgers = before.getGracePeriodLedgers := by
    simp only [State.getGracePeriodLedgers, hframe.get .gracePeriodLedgers rfl]
  have hstays (hget' : after.getPolicy id.holder id.policyId = some policy) : Due after id := by
    refine ⟨policy, hget', ?_, ?_⟩
    · rwa [State.GraceFits, hgrace]
    · rwa [State.Lapsed, hgrace, hframe.sequence]
  obtain hsame | ⟨ended, -, -, -, hrec, -⟩ := processExpiredOne_eq_ok h
  · exact .inl (hstays ((getPolicy_of_same (hsame.sameKind rfl) ..).trans hget))
  · by_cases hkey : id.holder = holder ∧ id.policyId = policyId
    · refine .inr fun other hother => ?_
      rw [getPolicy_of_write hrec, if_pos hkey] at hother
      cases hother
      rfl
    · refine .inl (hstays ?_)
      rw [getPolicy_of_write hrec, if_neg hkey]
      exact hget

/-- **After a batch a policy is inactive** that was so before, or that is in it and due. -/
theorem inactive_of_batch (h : processBatch ids before = .ok after)
    (hid : Inactive before id ∨ id ∈ ids ∧ Due before id) : Inactive after id := by
  induction ids generalizing before with
  | nil =>
    cases h
    exact hid.resolve_right fun hmem => absurd hmem.1 List.not_mem_nil
  | cons first rest ih =>
    obtain ⟨⟨counted, next⟩, hround, hrest⟩ := bind_eq_ok.mp h
    obtain hinactive | ⟨hmem, hdue⟩ := hid
    · exact ih hrest (.inl (inactive_of_round hround hinactive))
    · obtain rfl | hmem := List.mem_cons.mp hmem
      · exact ih hrest (.inl (inactive_of_own_round hround hdue))
      · exact ih hrest ((due_of_round hround hdue).symm.imp_right (⟨hmem, ·⟩))

end Batch

/-! ## One step -/

/-- What a step of a run does. -/
inductive Keeper.Step (w : World) : Run → Outcome → World × Run → Prop
  /-- The run fails, and the contract may have changed. -/
  | fails {p outcome} (chain : State) (consecutiveFailures breakerOpenUntil : Nat)
      (hnone : p.toAdd = []) :
      Step w p outcome
        ({ w with chain, consecutiveFailures, breakerOpenUntil }, .returned 0)
  | abandons {txHash after row urls rest length q} :
      Step w (.add txHash after row urls rest length) .failed q
  | polls : Step w .getLatestLedger .ok (w, .findMany w.chain.sequence)
  | idle {currentLedger} : Step w (.findMany currentLedger) .ok (w, .returned 0)
  | selects {currentLedger} :
      Step w (.findMany currentLedger) .ok
        (w, .processExpiredPolicies (w.expired currentLedger))
  | processes {expired txHash chain}
      (hchain : keeper.processExpiredPolicies w.chain BATCH_SIZE = some chain) :
      Step w (.processExpiredPolicies expired) (.confirmed txHash)
        ({ w with chain, consecutiveFailures := 0 }, .update txHash chain expired expired.length)
  | finishes {txHash after length} :
      Step w (.update txHash after [] length) .ok (w, .returned length)
  | writes {txHash after row rest length} :
      Step w (.update txHash after (row :: rest) length) .ok
        (w.update row.id after, .add txHash after row keeper.getSubscriberUrls rest length)
  | enqueues {txHash after row url urls rest length} :
      Step w (.add txHash after row (url :: urls) rest length) .ok
        (w.add (keeper.job row txHash url), .add txHash after row urls rest length)
  | goesOn {txHash after row rest length} :
      Step w (.add txHash after row [] rest length) .ok (w, .update txHash after rest length)

variable {keeper} {chain : State} {id : PolicyLookupKey} {s : Concurrent.State World Run}
  {w : World} {p : Run} {q : World × Run} {outcome : Outcome}

theorem step_of_fail (keeper : Keeper) (w : World) (chain : State) (outcome : Outcome)
    (hnone : p.toAdd = []) : keeper.Step w p outcome { w with chain }.fail := by
  rw [World.fail]
  split
  · exact .fails chain _ _ hnone
  · exact .fails chain _ _ hnone

theorem step_of_next (h : keeper.next w p outcome = some q) : keeper.Step w p outcome q := by
  rw [Keeper.next.eq_def] at h
  split at h
  · cases h
    exact .polls
  · cases h
    split
    · exact .idle
    · exact .selects
  · obtain ⟨chain, hchain, rfl⟩ := Option.map_eq_some_iff.mp h
    exact .processes hchain
  · obtain ⟨chain, -, rfl⟩ := Option.map_eq_some_iff.mp h
    exact step_of_fail keeper w chain _ rfl
  · cases h
    exact .finishes
  · split at h
    · cases h
      exact .writes
    · cases h
      exact step_of_fail keeper w w.chain _ rfl
  · cases h
    exact .goesOn
  · cases h
    exact .enqueues
  · cases h
    exact step_of_fail keeper w w.chain _ rfl
  · cases h
    exact step_of_fail keeper w w.chain _ rfl
  · cases h
    exact step_of_fail keeper w w.chain _ rfl
  · cases h
    exact step_of_fail keeper w w.chain _ rfl
  · cases h
    exact .abandons
  · cases h

theorem start_cases (h : start w () = some q) :
    q.1 = w ∧ ((∃ n, q.2 = .returned n) ∨ q.2 = .getLatestLedger) := by
  cases h
  refine ⟨rfl, ?_⟩
  dsimp only
  split
  · exact .inl ⟨0, rfl⟩
  · exact .inr rfl

theorem start_empty (h : start w () = some q) :
    q.1 = w ∧ q.2.selected = [] ∧ q.2.toAdd = [] := by
  obtain ⟨hsame, ⟨n, hq⟩ | hq⟩ := start_cases h
  · rw [hq]
    exact ⟨hsame, rfl, rfl⟩
  · rw [hq]
    exact ⟨hsame, rfl, rfl⟩

/-- What changes around the runs leaves the webhooks and the deactivations alone, and writes to the
table only rows with keys of their own. -/
theorem around_cases {e : Around} {w' : World} (h : w.around e = some w') :
    w'.enqueued = w.enqueued ∧ w'.deactivated = w.deactivated ∧
      (w'.policies = w.policies ∨ e = .policies w'.policies ∧ (w'.policies.map Row.id).Nodup) := by
  cases e with
  | chain | tick =>
    cases h
    exact ⟨rfl, rfl, .inl rfl⟩
  | policies rows =>
    obtain ⟨hnodup, hrows⟩ := Option.ite_none_right_eq_some.mp h
    cases hrows
    exact ⟨rfl, rfl, .inr ⟨rfl, hnodup⟩⟩

/-! ## What the rows and the runs are like -/

/-- What the keeper has deactivated is inactive in the contract, and its row is not active again. -/
structure World.Sound (w : World) : Prop where
  nodup : (w.policies.map Row.id).Nodup
  inactive : ∀ d ∈ w.deactivated, Inactive d.after d.id
  written : ∀ row ∈ w.policies, row.id ∈ w.deactivated.map Deactivation.id → row.isActive = false

/-- The rows that are left are inactive in the contract after the call. -/
def Run.Sound : Run → Prop
  | .update _ after rows _ | .add _ after _ _ rows _ => ∀ row ∈ rows, Inactive after row.id
  | _ => True

theorem ids_update (w : World) (id : PolicyLookupKey) (after : State) :
    (w.update id after).policies.map Row.id = w.policies.map Row.id := by
  rw [World.update, List.map_map]
  refine List.map_congr_left fun row _ => ?_
  show (if row.id = id then { row with isActive := false } else row).id = row.id
  split <;> rfl

theorem World.Sound.update {after : State} (h : w.Sound) (hid : Inactive after id) :
    (w.update id after).Sound where
  nodup := by
    rw [ids_update]
    exact h.nodup
  inactive := by
    intro d hd
    obtain hd | hd := List.mem_append.mp hd
    · exact h.inactive d hd
    · obtain rfl := List.mem_singleton.mp hd
      exact hid
  written := by
    intro row hrow hmem
    obtain ⟨old, hold, rfl⟩ := List.mem_map.mp hrow
    by_cases hkey : old.id = id
    · rw [if_pos hkey]
    · rw [if_neg hkey] at hmem ⊢
      rw [World.update, List.map_append, List.mem_append] at hmem
      exact h.written old hold (hmem.resolve_right fun hlast => hkey (List.mem_singleton.mp hlast))

theorem inactive_of_processes {expired : List Row} {txHash : String} {chain : State}
    (hclear : keeper.Undisturbed s (.processExpiredPolicies expired) (.confirmed txHash))
    (h : keeper.processExpiredPolicies s.shared.chain BATCH_SIZE = some chain) {row : Row}
    (hrow : row ∈ expired) : Inactive chain row.id := by
  rw [Keeper.processExpiredPolicies] at h
  split at h
  · cases hbatch : processBatch (keeper.batch s.shared.chain BATCH_SIZE) s.shared.chain with
    | error e =>
      rw [hbatch] at h
      cases h
    | ok after =>
      rw [hbatch] at h
      cases h
      exact inactive_of_batch hbatch (hclear row hrow)
  · cases h

theorem sound_next (hclear : keeper.Undisturbed s p outcome) (hw : s.shared.Sound) (hp : p.Sound)
    (h : keeper.Step s.shared p outcome q) : q.1.Sound ∧ q.2.Sound := by
  cases h with
  | fails => exact ⟨⟨hw.nodup, hw.inactive, hw.written⟩, trivial⟩
  | abandons => exact absurd hclear id
  | polls | idle | selects | finishes => exact ⟨hw, trivial⟩
  | processes hchain =>
    exact ⟨⟨hw.nodup, hw.inactive, hw.written⟩, fun row hrow =>
      inactive_of_processes hclear hchain hrow⟩
  | @writes txHash after row rest length =>
    exact ⟨hw.update (hp row List.mem_cons_self), fun other hother =>
      hp other (List.mem_cons_of_mem _ hother)⟩
  | enqueues => exact ⟨⟨hw.nodup, hw.inactive, hw.written⟩, hp⟩
  | goesOn => exact ⟨hw, hp⟩

theorem sound_of_reach (h : (keeper.machine chain).Reach keeper.Clear s) :
    s.shared.Sound ∧ ∀ p ∈ s.calls, p.Sound := by
  refine Concurrent.Reach.sharedInvariant (J := fun _ p => p.Sound) ?_ ?_ ?_ ?_ h
  · rintro w ⟨-, hnodup, -, -, hnone⟩
    exact ⟨hnodup, by simp [hnone], by simp [hnone]⟩
  · intro s args q _ hs hq
    obtain ⟨hsame, hrun⟩ := start_cases hq
    rw [hsame]
    refine ⟨hs, ?_, fun _ _ hp => hp⟩
    obtain ⟨n, hq⟩ | hq := hrun
    · rw [hq]
      trivial
    · rw [hq]
      trivial
  · intro s i outcome p q hl hcall hs hp hq
    obtain ⟨hs', hp'⟩ := sound_next (hl p hcall) hs hp (step_of_next hq)
    exact ⟨hs', hp', fun _ _ hp => hp⟩
  · intro s e shared hl hs hshared
    refine ⟨?_, fun _ _ hp => hp⟩
    obtain ⟨-, hdeactivated, hsame | ⟨rfl, hnodup⟩⟩ := around_cases hshared
    · exact ⟨hsame ▸ hs.nodup, hdeactivated ▸ hs.inactive, hsame ▸ hdeactivated ▸ hs.written⟩
    · exact ⟨hnodup, hdeactivated ▸ hs.inactive, hdeactivated ▸ hl⟩

/-! ## One run at a time -/

theorem mem_expired {currentLedger : Nat} {row : Row} (h : row ∈ w.expired currentLedger) :
    row ∈ w.policies ∧ row.isActive = true := by
  have hsorted := List.mem_of_mem_take h
  rw [List.mem_insertionSort, List.mem_filter, Bool.and_eq_true, Bool.and_eq_true] at hsorted
  exact ⟨hsorted.1, hsorted.2.1.1⟩

theorem nodup_expired (currentLedger : Nat) (h : (w.policies.map Row.id).Nodup) :
    ((w.expired currentLedger).map Row.id).Nodup := by
  refine List.Nodup.sublist ((List.take_sublist ..).map Row.id) ?_
  refine (((List.perm_insertionSort ..).map Row.id).nodup_iff).mpr ?_
  exact h.sublist (List.filter_sublist.map Row.id)

/-- The policies that are selected, until they are written. -/
def claims : View World Run PolicyLookupKey where
  issued _ := []
  kept w := w.deactivated.map Deactivation.id
  held := Run.selected

theorem exclusively_selects {currentLedger : Nat}
    (hclear : keeper.Undisturbed s (.findMany currentLedger) .ok) (hs : s.shared.Sound) :
    claims.Exclusively s s.shared [] ((s.shared.expired currentLedger).map Row.id) := by
  intro k
  by_cases hk : k ∈ (s.shared.expired currentLedger).map Row.id
  · obtain ⟨row, hrow, rfl⟩ := List.mem_map.mp hk
    obtain ⟨hmem, hactive⟩ := mem_expired hrow
    have hunwritten : row.id ∉ claims.kept s.shared := by
      intro hwritten
      rw [hs.written row hmem hwritten] at hactive
      cases hactive
    have hfree : row.id ∉ claims.inHands s := by
      intro hheld
      obtain ⟨p, hp, hheld⟩ := List.mem_flatMap.mp hheld
      exact hclear row hrow p hp hheld
    have hone := List.nodup_iff_count_le_one.mp (nodup_expired currentLedger hs.nodup) row.id
    rw [List.count_eq_zero_of_not_mem hunwritten, List.count_eq_zero_of_not_mem hfree]
    exact .inr ⟨rfl, by omega⟩
  · rw [List.count_eq_zero_of_not_mem hk]
    exact .inl (Nat.le_add_right ..)

theorem exclusively_next (hclear : keeper.Undisturbed s p outcome) (hs : s.shared.Sound)
    (h : keeper.Step s.shared p outcome q) :
    claims.Exclusively s q.1 (claims.held p) (claims.held q.2) := by
  cases h with
  | fails | idle => exact .of_le fun k => Nat.add_le_add_left (Nat.zero_le _) _
  | abandons => exact absurd hclear id
  | selects => exact exclusively_selects hclear hs
  | polls | processes | finishes | enqueues | goesOn => exact .of_le fun k => le_rfl
  | @writes txHash after row rest length =>
    refine .of_le fun k => ?_
    have hwritten : (s.shared.deactivated ++ [Deactivation.mk row.id after]).map Deactivation.id =
        s.shared.deactivated.map Deactivation.id ++ [row.id] := List.map_append
    show ((s.shared.deactivated ++ [Deactivation.mk row.id after]).map Deactivation.id).count k +
      (rest.map Row.id).count k ≤
        (s.shared.deactivated.map Deactivation.id).count k + (row.id :: rest.map Row.id).count k
    rw [hwritten, List.count_append, List.count_singleton, List.count_cons]
    omega

/-- **No policy is deactivated twice**, or selected when it was. -/
theorem exclusive_of_reach (h : (keeper.machine chain).Reach keeper.Clear s) :
    claims.Exclusive s := by
  refine Custody.Reach.exclusive ?_ ?_ ?_ ?_ h
  · rintro w ⟨-, -, -, -, hnone⟩
    show w.deactivated.map Deactivation.id = []
    rw [hnone]
    rfl
  · intro s args q _ _ hq
    obtain ⟨hsame, hselected, -⟩ := start_empty hq
    show claims.Exclusively s q.1 [] q.2.selected
    rw [hsame, hselected]
    exact .of_le fun k => le_rfl
  · intro s i outcome p q hreach hl hcall hq
    exact exclusively_next (hl p hcall) (sound_of_reach hreach).1 (step_of_next hq)
  · intro s e shared _ _ hshared
    exact congrArg (List.map Deactivation.id) (around_cases hshared).2.1

/-! ## The webhooks -/

variable (keeper) in
/-- A deactivation calls for a webhook for each subscriber. -/
def Keeper.webhooks : View World Run Notice where
  issued w := w.deactivated.flatMap fun d => keeper.getSubscriberUrls.map (Notice.mk d.id)
  kept w := w.enqueued.map Job.notice
  held := Run.toAdd

theorem balanced_next (hclear : keeper.Undisturbed s p outcome)
    (h : keeper.Step s.shared p outcome q) :
    keeper.webhooks.Balanced s.shared q.1 p.toAdd q.2.toAdd := by
  cases h with
  | fails chain consecutiveFailures breakerOpenUntil hnone => exact .of_eq rfl rfl hnone.symm
  | abandons => exact absurd hclear id
  | polls | idle | selects | processes | finishes | goesOn => exact .of_eq rfl rfl rfl
  | @writes txHash after row rest length =>
    intro k
    have hcalled : (s.shared.deactivated ++ [Deactivation.mk row.id after]).flatMap
        (fun d => keeper.getSubscriberUrls.map (Notice.mk d.id)) =
        keeper.webhooks.issued s.shared ++ keeper.getSubscriberUrls.map (Notice.mk row.id) := by
      rw [List.flatMap_append, List.flatMap_singleton]
      rfl
    show ((s.shared.deactivated ++ [Deactivation.mk row.id after]).flatMap
        (fun d => keeper.getSubscriberUrls.map (Notice.mk d.id))).count k +
        (keeper.webhooks.kept s.shared).count k + 0 =
      (keeper.webhooks.issued s.shared).count k + (keeper.webhooks.kept s.shared).count k +
        (keeper.getSubscriberUrls.map (Notice.mk row.id)).count k
    rw [hcalled, List.count_append]
    omega
  | @enqueues txHash after row url urls rest length =>
    intro k
    have hjob : (s.shared.enqueued ++ [keeper.job row txHash url]).map Job.notice =
        s.shared.enqueued.map Job.notice ++ [Notice.mk row.id url] := List.map_append
    show (keeper.webhooks.issued s.shared).count k + (s.shared.enqueued.map Job.notice).count k +
        (Notice.mk row.id url :: urls.map (Notice.mk row.id)).count k =
      (keeper.webhooks.issued s.shared).count k +
        ((s.shared.enqueued ++ [keeper.job row txHash url]).map Job.notice).count k +
          (urls.map (Notice.mk row.id)).count k
    rw [hjob, List.count_append, List.count_singleton, List.count_cons]
    omega

theorem conserved_of_reach (h : (keeper.machine chain).Reach keeper.Clear s) :
    keeper.webhooks.Conserved s := by
  refine Custody.Reach.conserved ?_ ?_ ?_ ?_ h
  · rintro w ⟨-, -, -, hjobs, hnone⟩
    refine ⟨?_, ?_⟩
    · show w.deactivated.flatMap _ = []
      rw [hnone]
      rfl
    · show w.enqueued.map Job.notice = []
      rw [hjobs]
      rfl
  · intro s args q _ _ _ hq
    obtain ⟨hsame, -, hnone⟩ := start_empty hq
    rw [hsame]
    exact .of_eq rfl rfl hnone
  · intro s i outcome p q _ _ hl hcall hq
    exact balanced_next (hl p hcall) (step_of_next hq)
  · intro s e shared _ _ _ hshared
    obtain ⟨henqueued, hdeactivated, -⟩ := around_cases hshared
    refine .of_eq ?_ (congrArg (List.map Job.notice) henqueued) rfl
    show shared.deactivated.flatMap _ = s.shared.deactivated.flatMap _
    rw [hdeactivated]

theorem count_issued (hexclusive : claims.Exclusive s) {d : Deactivation}
    (hd : d ∈ s.shared.deactivated) (url : String) :
    (keeper.webhooks.issued s.shared).count ⟨d.id, url⟩ = keeper.getSubscriberUrls.count url := by
  have honce : (s.shared.deactivated.map Deactivation.id).Nodup :=
    List.nodup_iff_count_le_one.mpr fun id => (Nat.le_add_right ..).trans (hexclusive id)
  have hinj : Function.Injective (Notice.mk d.id) := by
    rintro a b ⟨⟩
    rfl
  have hown (other : Deactivation) (hne : other.id ≠ d.id) :
      Notice.mk d.id url ∉ keeper.getSubscriberUrls.map (Notice.mk other.id) := by
    intro hmem
    obtain ⟨_, -, heq⟩ := List.mem_map.mp hmem
    exact hne (congrArg Notice.id heq)
  calc (keeper.webhooks.issued s.shared).count ⟨d.id, url⟩
      = (keeper.getSubscriberUrls.map (Notice.mk d.id)).count ⟨d.id, url⟩ :=
        count_flatMap_of_nodup honce hd hown
    _ = keeper.getSubscriberUrls.count url := List.count_map_of_injective _ _ hinj url

/-! ## The run -/

/-- Without an entrypoint the call of the contract fails, and **the keeper does nothing**. -/
theorem deactivated_eq_nil
    {ok : Concurrent.State World Run → Concurrent.Label Unit Outcome Around → Prop}
    (hnone : keeper.process_expired_policies = none) (h : (keeper.machine chain).Reach ok s) :
    s.shared.deactivated = [] ∧ s.shared.enqueued = [] := by
  refine (Concurrent.Reach.sharedInvariant (I := fun w => w.deactivated = [] ∧ w.enqueued = [])
    (J := fun _ p => match p with | .update .. | .add .. => False | _ => True) ?_ ?_ ?_ ?_ h).1
  · rintro w ⟨-, -, -, hjobs, hnone⟩
    exact ⟨hnone, hjobs⟩
  · intro s args q _ hs hq
    obtain ⟨hsame, ⟨n, hq⟩ | hq⟩ := start_cases hq
    · rw [hsame, hq]
      exact ⟨hs, trivial, fun _ _ hp => hp⟩
    · rw [hsame, hq]
      exact ⟨hs, trivial, fun _ _ hp => hp⟩
  · intro s i outcome p q _ _ hs hp hq
    cases step_of_next hq with
    | fails | polls | idle | selects => exact ⟨hs, trivial, fun _ _ hp => hp⟩
    | processes hchain =>
      rw [Keeper.processExpiredPolicies, hnone] at hchain
      cases hchain
    | abandons | finishes | writes | enqueues | goesOn => exact hp.elim
  · intro s e shared _ hs hshared
    obtain ⟨henqueued, hdeactivated, -⟩ := around_cases hshared
    exact ⟨⟨hdeactivated.trans hs.1, henqueued.trans hs.2⟩, fun _ _ hp => hp⟩

/-- **The keeper mirrors the contract.**  In every run that meets `Clear`, what the keeper has
deactivated was inactive in the contract after the call; and for each such policy and each
subscriber one webhook is enqueued, or a run is about to enqueue it. -/
theorem mirrored_of_reach (keeper : Keeper) (chain : State)
    (h : (keeper.machine chain).Reach keeper.Clear s) :
    ∀ d ∈ s.shared.deactivated, Inactive d.after d.id ∧
      ∀ url, (s.shared.enqueued.map Job.notice).count ⟨d.id, url⟩ +
        (s.calls.flatMap Run.toAdd).count ⟨d.id, url⟩ = keeper.getSubscriberUrls.count url := by
  intro d hd
  refine ⟨(sound_of_reach h).1.inactive d hd, fun url => ?_⟩
  rw [← count_issued (exclusive_of_reach h) hd url]
  exact (conserved_of_reach h ⟨d.id, url⟩).symm

/-! ## Examples -/

/-- A contract that processes the policies of its index of active ones of which the term is over,
and two subscribers. -/
def demo : Keeper where
  process_expired_policies := some fun chain _ =>
    (chain.getPolicyStatusIndexRaw .active).filter fun id =>
      (chain.getPolicy id.holder id.policyId).any fun policy =>
        isExpired chain.sequence policy.endLedger
  POLICY_EXPIRED_WEBHOOK_URLS := "https://a.example/hooks, https://b.example"
  strkey := toString

/-- The rows of the policies of the accounts 1 to 3. -/
def demoRows : List Row :=
  [⟨1, 1, true, 519400, none⟩, ⟨1, 2, true, 519400, none⟩, ⟨1, 3, true, 519400, none⟩]

def demoWorld (chain : State) : World := ⟨chain, demoRows, 0, 0, 0, [], []⟩

/-- A run over a contract that was reached, with a table that mirrors it, comes to such a state. -/
def Comes (ok : Concurrent.State World Run → Concurrent.Label Unit Outcome Around → Prop)
    (goal : Concurrent.State World Run → Prop) : Prop :=
  ∃ chain, (contract demoHost).Reach Machine.always chain ∧
    ∃ s, (demo.machine chain).Reach ok s ∧ goal s

theorem comes_of_runAll
    {ok : Concurrent.State World Run → Concurrent.Label Unit Outcome Around → Prop}
    [∀ s l, Decidable (ok s l)] {goal : Concurrent.State World Run → Prop} [DecidablePred goal]
    (ledger : Nat) (ls : List (Concurrent.Label Unit Outcome Around))
    (h : ((deployed 0).follow noCheck (demoSetup ++ [.closeLedger ledger])).map (fun chain =>
      decide (demoWorld chain).Mirrors && (Machine.runAll ok demo.program.act ls
        ⟨demoWorld chain, []⟩).any fun s => decide (goal s)) = .ok true) : Comes ok goal := by
  obtain ⟨chain, hchain, hval⟩ := exists_of_follow always_of_noCheck (deployed 0) _
    (fresh_deployed (by decide)) (by simp [demoSetup, demoInit, demoBind]) h
  obtain ⟨hmirrors, hrun⟩ := Bool.and_eq_true_iff.mp hval
  have hnodup : (demoRows.map Row.id).Nodup := by decide
  exact ⟨chain, hchain, Machine.exists_reach_of_runAll ls
    ⟨⟨rfl, hnodup, of_decide_eq_true hmirrors, rfl, rfl⟩, rfl⟩ hrun⟩

/-- A step of the run `i` that succeeds. -/
def succeeds (i : Nat) : Concurrent.Label Unit Outcome Around := .next i .ok

/-- At the end of the grace period one run cannot reach the contract, and another one deactivates
the three policies. -/
theorem mirrored_of_reach_lapsed :
    Comes demo.Clear fun s => s.shared.deactivated.map Deactivation.id = [⟨1, 1⟩, ⟨2, 1⟩, ⟨3, 1⟩] ∧
      ∀ d ∈ s.shared.deactivated, Inactive d.after d.id ∧
        ∀ url, (s.shared.enqueued.map Job.notice).count ⟨d.id, url⟩ +
          (s.calls.flatMap Run.toAdd).count ⟨d.id, url⟩ = demo.getSubscriberUrls.count url := by
  obtain ⟨chain, hchain, s, h, hall⟩ : Comes demo.Clear fun s =>
      s.shared.deactivated.map Deactivation.id = [⟨1, 1⟩, ⟨2, 1⟩, ⟨3, 1⟩] :=
    comes_of_runAll 536680
      ([.start (), succeeds 0, succeeds 0, .next 0 .failed, .start (), succeeds 1, succeeds 1,
        .next 1 (.confirmed "tx")] ++ List.replicate 13 (succeeds 1)) (by decide +kernel)
  exact ⟨chain, hchain, s, h, hall, mirrored_of_reach demo chain h⟩

/-- A contract without the entrypoint. -/
def absent : Keeper := { demo with process_expired_policies := none }

/-- A run selects the three policies, and fails. -/
theorem deactivated_eq_nil_absent : ∃ chain s, (contract demoHost).Reach Machine.always chain ∧
    (absent.machine chain).Reach Machine.always s ∧ s.calls.length = 1 ∧
      s.shared.deactivated = [] ∧ s.shared.enqueued = [] := by
  obtain ⟨chain, hchain, hval⟩ := exists_of_follow always_of_noCheck (deployed 0)
    (demoSetup ++ [.closeLedger 536680]) (a := true)
    (f := fun chain => decide (demoWorld chain).Mirrors && (Machine.runAll Machine.always
      absent.program.act [.start (), succeeds 0, succeeds 0, .next 0 .failed]
        ⟨demoWorld chain, []⟩).any fun s => decide (s.calls.length = 1))
    (fresh_deployed (by decide)) (by simp [demoSetup, demoInit, demoBind]) (by decide +kernel)
  obtain ⟨hmirrors, hrun⟩ := Bool.and_eq_true_iff.mp hval
  have hnodup : (demoRows.map Row.id).Nodup := by decide
  obtain ⟨s, hs, hcalls⟩ : ∃ s, (absent.machine chain).Reach Machine.always s ∧
      s.calls.length = 1 :=
    Machine.exists_reach_of_runAll _ ⟨⟨rfl, hnodup, of_decide_eq_true hmirrors, rfl, rfl⟩, rfl⟩ hrun
  exact ⟨chain, s, hchain, hs, hcalls, deactivated_eq_nil rfl hs⟩

/-- The table says that a policy has ended which is active in the contract: it is in its grace
period.  The webhooks of a policy are not enqueued after a failure.  And they are enqueued twice
where two runs select it. -/
theorem not_mirrored :
    (Comes Machine.always fun s => ∃ d ∈ s.shared.deactivated, ¬ Inactive d.after d.id) ∧
    (Comes Machine.always fun s => s.shared.deactivated.map Deactivation.id = [⟨1, 1⟩] ∧
      s.shared.enqueued.map Job.notice = [] ∧ s.calls.flatMap Run.toAdd = []) ∧
    Comes Machine.always fun s =>
      (s.shared.enqueued.map Job.notice).count ⟨⟨1, 1⟩, "https://b.example"⟩ = 2 := by
  refine ⟨?_, ?_, ?_⟩
  · exact comes_of_runAll 519401
      [.start (), succeeds 0, succeeds 0, .next 0 (.confirmed "tx"), succeeds 0] (by decide +kernel)
  · exact comes_of_runAll 536680
      [.start (), succeeds 0, succeeds 0, .next 0 (.confirmed "tx"), succeeds 0, .next 0 .failed]
      (by decide +kernel)
  · exact comes_of_runAll 536680
      [.start (), succeeds 0, succeeds 0, .start (), succeeds 1, succeeds 1,
        .next 0 (.confirmed "tx"), .next 1 (.confirmed "tx2"), succeeds 0, succeeds 0, succeeds 0,
        succeeds 1, succeeds 1, succeeds 1] (by decide +kernel)

end NiffyInsure.Backend.ExpiryKeeper
