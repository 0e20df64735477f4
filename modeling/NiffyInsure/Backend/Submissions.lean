import NiffyInsure.Lib.CheckThenAct

/-!
# Submitting a transaction

`submit` (`tx.service.ts`) looks in Redis for a result under the idempotency key of the request,
checks the signed envelope, sends it to the network, and then stores the result under the key.  The
look, the send and the store are separate steps, and the key says nothing of the envelope.

The SDK that reads an envelope and the code of a rejection is a parameter.

* `submit_once_of_reach`: an envelope is accepted once under a key, and a request is answered for
  its own envelope, as long as no request uses a key of another envelope, and no key is looked for
  while another request is about to send the same envelope or to store its result.
-/

namespace NiffyInsure.Backend.Submissions

open CheckThenAct

/-! ## The data -/

structure SubmitTxDto where
  signedXdr : String
  idempotencyKey : Option String
  deriving DecidableEq

/-- The idempotency key, when it counts as one. -/
def SubmitTxDto.key (dto : SubmitTxDto) : Option String := dto.idempotencyKey.filter (· ≠ "")

inductive Status where
  | PENDING
  | DUPLICATE
  | TRY_AGAIN_LATER
  | ERROR
  deriving DecidableEq

/-- What the network answers. -/
structure SendTransactionResponse where
  hash : String
  status : Status
  errorResultXdr : Option String
  deriving DecidableEq

structure SubmitResult where
  type : String
  hash : String
  status : Status
  ledger : Option Nat
  errorCode : Option String
  errorMessage : Option String
  cached : Option Bool
  deriving DecidableEq

inductive ErrorKind where
  | badRequest
  | serviceUnavailable
  deriving DecidableEq

structure HttpException where
  kind : ErrorKind
  code : String
  message : String
  deriving DecidableEq

/-- What `parseAndValidateXdr` looks at: the number of signatures, and the types of the
operations. -/
structure Transaction where
  signatures : Nat
  operations : List String

inductive Parsed where
  | transaction (tx : Transaction)
  | feeBump

/-- The SDK: `TransactionBuilder.fromXDR`, and the name of the code in the XDR of a result (`none`
where they throw). -/
structure Sdk where
  fromXDR : String → Option Parsed
  resultName : String → Option String

variable (sdk : Sdk)

/-! ## The helpers -/

def Sdk.parseAndValidateXdr (signedXdr : String) : Except HttpException Transaction :=
  match sdk.fromXDR signedXdr with
  | none => throw ⟨.badRequest, "INVALID_XDR",
      "Could not parse the signed_xdr. Ensure it is a valid base64-encoded TransactionEnvelope " ++
        "for the correct network."⟩
  | some .feeBump => throw ⟨.badRequest, "FEE_BUMP_NOT_SUPPORTED",
      "Fee-bump envelopes are not accepted at this endpoint. Submit the inner transaction " ++
        "directly."⟩
  | some (.transaction tx) =>
    if tx.signatures = 0 then
      throw ⟨.badRequest, "MISSING_SIGNATURES",
        "The transaction envelope has no signatures. Sign the XDR with your wallet before " ++
          "submitting."⟩
    else if tx.operations = [] then
      throw ⟨.badRequest, "EMPTY_OPERATIONS", "Transaction has no operations."⟩
    else if "invokeHostFunction" ∉ tx.operations then
      throw ⟨.badRequest, "INVALID_OPERATION_TYPE",
        "Expected an invokeHostFunction operation. Only Soroban contract invocations are " ++
          "accepted here."⟩
    else pure tx

def codeMap : List (String × String) :=
  [("txBAD_SEQ", "TX_BAD_SEQ"), ("txBAD_AUTH", "TX_BAD_AUTH"),
    ("txINSUFFICIENT_FEE", "TX_INSUFFICIENT_FEE"),
    ("txINSUFFICIENT_BALANCE", "TX_INSUFFICIENT_BALANCE"), ("txNO_ACCOUNT", "TX_NO_ACCOUNT"),
    ("txFAILED", "TX_FAILED"), ("txTOO_EARLY", "TX_TOO_EARLY"), ("txTOO_LATE", "TX_TOO_LATE"),
    ("txMISSING_OPERATION", "TX_MISSING_OPERATION"), ("txINTERNAL_ERROR", "TX_INTERNAL_ERROR")]

def Sdk.mapErrorCode (response : SendTransactionResponse) : String :=
  match (response.errorResultXdr.filter (· ≠ "")).bind sdk.resultName with
  | some code => (codeMap.lookup code).getD ("TX_ERROR_" ++ code)
  | none => "TX_SUBMISSION_FAILED"

def messages : List (String × String) :=
  [("TX_BAD_SEQ",
      "Sequence number mismatch. Rebuild the transaction to fetch the latest sequence."),
    ("TX_BAD_AUTH", "One or more signatures are invalid or missing."),
    ("TX_INSUFFICIENT_FEE", "Fee is too low. Rebuild with a higher fee."),
    ("TX_INSUFFICIENT_BALANCE", "Source account has insufficient XLM balance."),
    ("TX_NO_ACCOUNT", "Source account does not exist on this network."),
    ("TX_FAILED", "Transaction failed. Check operation results for details."),
    ("TX_TOO_EARLY", "Transaction submitted before its minTime bound."),
    ("TX_TOO_LATE", "Transaction expired. Rebuild with a fresh timeout."),
    ("TX_MISSING_OPERATION", "Transaction has no operations."),
    ("TX_INTERNAL_ERROR", "Stellar network internal error. Try again."),
    ("TX_SUBMISSION_FAILED", "Transaction submission failed.")]

def errorCodeToMessage (code : String) : String :=
  (messages.lookup code).getD "An unknown submission error occurred."

def Sdk.mapSubmissionResponse (response : SendTransactionResponse) : SubmitResult :=
  let base : SubmitResult := ⟨"submit", response.hash, response.status, none, none, none, none⟩
  if response.status = .ERROR then
    let errorCode := sdk.mapErrorCode response
    { base with errorCode := some errorCode, errorMessage := some (errorCodeToMessage errorCode) }
  else base

def rpcUnavailable : HttpException :=
  ⟨.serviceUnavailable, "RPC_UNAVAILABLE",
    "Could not reach the Soroban RPC endpoint. Try again shortly."⟩

/-! ## The calls -/

/-- A submission that the network has answered, with the key of its request. -/
structure Send where
  key : Option String
  signedXdr : String
  response : SendTransactionResponse
  deriving DecidableEq

/-- The results in Redis, and the submissions that the network has answered. -/
structure State where
  redis : String → Option SubmitResult
  sends : List Send

def redisKey (key : String) : String := "tx:idem:" ++ key

/-- How far a call of `submit` has come. -/
inductive Call where
  | get (dto : SubmitTxDto) (key : String)
  | sendTransaction (dto : SubmitTxDto)
  | set (dto : SubmitTxDto) (key : String) (result : SubmitResult)
  | returned (dto : SubmitTxDto) (result : SubmitResult)
  | threw (dto : SubmitTxDto) (error : HttpException)
  deriving DecidableEq

/-- Redis answers or fails, and the network answers or cannot be reached (`error`). -/
inductive Outcome where
  | ok
  | error
  | response (response : SendTransactionResponse)
  deriving DecidableEq

/-- From the check of the envelope on. -/
def Sdk.prepare (dto : SubmitTxDto) : Call :=
  match sdk.parseAndValidateXdr dto.signedXdr with
  | .ok _ => .sendTransaction dto
  | .error error => .threw dto error

/-- The next step of `submit`.  `RedisService` answers `null` when a `GET` fails and ignores a
failing `SETEX`. -/
def Sdk.next (s : State) : Call → Outcome → Option (State × Call)
  | .get dto key, .ok =>
    match s.redis (redisKey key) with
    | some result => some (s, .returned dto { result with cached := some true })
    | none => some (s, sdk.prepare dto)
  | .get dto _, .error => some (s, sdk.prepare dto)
  | .sendTransaction dto, .response response =>
    let result := sdk.mapSubmissionResponse response
    let sends := s.sends ++ [⟨dto.key, dto.signedXdr, response⟩]
    match dto.key with
    | some key =>
      if result.status ≠ .ERROR then some ({ s with sends }, .set dto key result)
      else some ({ s with sends }, .returned dto result)
    | none => some ({ s with sends }, .returned dto result)
  | .sendTransaction dto, .error => some (s, .threw dto rpcUnavailable)
  | .set dto key result, .ok =>
    some ({ s with redis := Function.update s.redis (redisKey key) (some result) },
      .returned dto result)
  | .set dto _ result, .error => some (s, .returned dto result)
  | _, _ => none

/-- The calls of `submit`. -/
def Sdk.program : Concurrent.Program State Call SubmitTxDto Outcome Empty where
  start s dto :=
    match dto.key with
    | some key => some (s, .get dto key)
    | none => some (s, sdk.prepare dto)
  next := sdk.next
  around _ e := e.elim

/-- No key has a result. -/
def State.fresh : State := ⟨fun _ => none, []⟩

def Sdk.machine : Machine (Concurrent.State State Call)
    (Concurrent.Label SubmitTxDto Outcome Empty) :=
  sdk.program.machine (· = .fresh)

/-! ## What is claimed of them -/

/-- The key and the envelope of a submission under a key that was not rejected. -/
def Send.accepted (send : Send) : Option (String × String) :=
  if send.response.status = .ERROR then none else send.key.map (·, send.signedXdr)

/-- The submissions under a key that were not rejected. -/
def State.accepted (s : State) : List (String × String) := s.sends.filterMap Send.accepted

/-- The result is that of a submission of the request's own envelope. -/
def Sdk.Describes (s : State) (dto : SubmitTxDto) (result : SubmitResult) : Prop :=
  ∃ send ∈ s.sends, send.signedXdr = dto.signedXdr ∧
    { result with cached := none } = sdk.mapSubmissionResponse send.response

instance (s : State) (dto : SubmitTxDto) (result : SubmitResult) :
    Decidable (sdk.Describes s dto result) :=
  inferInstanceAs (Decidable (∃ send ∈ s.sends, _))

/-- A key is closed, for any envelope, when it has a result; a request has its key and envelope in
hand from when it has found no result until it has failed or has stored one. -/
def view : View State Call (String × String) where
  closed s k := (s.redis (redisKey k.1)).isSome
  log := State.accepted
  inHand
    | .sendTransaction dto => dto.key.map fun key => ((key, dto.signedXdr), false)
    | .set dto key _ => some ((key, dto.signedXdr), true)
    | _ => none

/-- No two of the requests use one key for different envelopes. -/
def OneEnvelope (requests : List SubmitTxDto) : Prop :=
  ∀ dto ∈ requests, ∀ dto' ∈ requests, dto.key.isSome → dto.key = dto'.key →
    dto.signedXdr = dto'.signedXdr

instance (requests : List SubmitTxDto) : Decidable (OneEnvelope requests) :=
  inferInstanceAs (Decidable (∀ dto ∈ requests, ∀ dto' ∈ requests, _))

/-- If a request finds nothing under its key (or is not answered) and goes on to send, there is
nothing to be found, and no other request has the same key and envelope in hand.  A result is stored
without failing. -/
def Sdk.Undisturbed (s : Concurrent.State State Call) : Call → Outcome → Prop
  | .get dto key, .ok =>
    s.shared.redis (redisKey key) = none → view.Free s (key, dto.signedXdr)
  | .get dto key, .error => sdk.prepare dto = .sendTransaction dto →
    s.shared.redis (redisKey key) = none ∧ view.Free s (key, dto.signedXdr)
  | .set _ _ _, .error => False
  | _, _ => True

instance (s : Concurrent.State State Call) (p : Call) (outcome : Outcome) :
    Decidable (sdk.Undisturbed s p outcome) :=
  match p, outcome with
  | .get dto key, .ok => inferInstanceAs (Decidable
      (s.shared.redis (redisKey key) = none → view.Free s (key, dto.signedXdr)))
  | .get dto key, .error => inferInstanceAs (Decidable (sdk.prepare dto = .sendTransaction dto →
      s.shared.redis (redisKey key) = none ∧ view.Free s (key, dto.signedXdr)))
  | .set _ _ _, .error => inferInstanceAs (Decidable False)
  | .get _ _, .response _ | .sendTransaction _, _ | .set _ _ _, .ok | .set _ _ _, .response _
  | .returned _ _, _ | .threw _ _, _ => inferInstanceAs (Decidable True)

/-- The request that starts is one of these, and the one that takes the step is undisturbed. -/
def Sdk.SubmitClear (requests : List SubmitTxDto) (s : Concurrent.State State Call) :
    Concurrent.Label SubmitTxDto Outcome Empty → Prop
  | .start dto => dto ∈ requests
  | .next i outcome => ∀ p ∈ s.calls[i]?, sdk.Undisturbed s p outcome
  | .around _ => True

instance (requests : List SubmitTxDto) (s : Concurrent.State State Call)
    (l : Concurrent.Label SubmitTxDto Outcome Empty) : Decidable (sdk.SubmitClear requests s l) :=
  match l with
  | .start dto => inferInstanceAs (Decidable (dto ∈ requests))
  | .next i outcome =>
    inferInstanceAs (Decidable (∀ p ∈ s.calls[i]?, sdk.Undisturbed s p outcome))
  | .around _ => inferInstanceAs (Decidable True)

variable {sdk} {s : Concurrent.State State Call} {p : Call} {q : State × Call} {outcome : Outcome}
  {dto : SubmitTxDto} {requests : List SubmitTxDto}

/-! ## One step -/

theorem status_mapSubmissionResponse (response : SendTransactionResponse) :
    (sdk.mapSubmissionResponse response).status = response.status := by
  simp only [Sdk.mapSubmissionResponse]
  split <;> rfl

theorem cached_mapSubmissionResponse (response : SendTransactionResponse) :
    (sdk.mapSubmissionResponse response).cached = none := by
  simp only [Sdk.mapSubmissionResponse]
  split <;> rfl

/-- An envelope that passes the check is sent. -/
theorem prepare_cases (sdk : Sdk) (dto : SubmitTxDto) :
    sdk.prepare dto = .sendTransaction dto ∨ ∃ error, sdk.prepare dto = .threw dto error := by
  rw [Sdk.prepare]
  split
  · exact .inl rfl
  · exact .inr ⟨_, rfl⟩

/-- **What one step of `submit` does.**  It answers with what it has found, goes on to the check,
submits the envelope, stores a result, or ends. -/
theorem next_cases {shared : State} (h : sdk.next shared p outcome = some q) :
    (∃ dto key result, p = .get dto key ∧ outcome = .ok ∧
      shared.redis (redisKey key) = some result ∧
        q = (shared, .returned dto { result with cached := some true })) ∨
    (∃ dto key, p = .get dto key ∧ (outcome = .ok → shared.redis (redisKey key) = none) ∧
      (outcome = .ok ∨ outcome = .error) ∧ q = (shared, sdk.prepare dto)) ∨
    (∃ dto response, p = .sendTransaction dto ∧
      q.1 = { shared with sends := shared.sends ++ [⟨dto.key, dto.signedXdr, response⟩] } ∧
        ((∃ key, dto.key = some key ∧ response.status ≠ .ERROR ∧
            q.2 = .set dto key (sdk.mapSubmissionResponse response)) ∨
          ((dto.key = none ∨ response.status = .ERROR) ∧
            q.2 = .returned dto (sdk.mapSubmissionResponse response)))) ∨
    (∃ dto, p = .sendTransaction dto ∧ q = (shared, .threw dto rpcUnavailable)) ∨
    (∃ dto key result, p = .set dto key result ∧ outcome = .ok ∧
      q = ({ shared with redis := Function.update shared.redis (redisKey key) (some result) },
        .returned dto result)) ∨
    ∃ dto key result, p = .set dto key result ∧ outcome = .error ∧
      q = (shared, .returned dto result) := by
  rw [Sdk.next.eq_def] at h
  split at h
  · rename_i dto key
    split at h
    · rename_i result hfound
      cases h
      exact .inl ⟨dto, key, result, rfl, rfl, hfound, rfl⟩
    · rename_i hnone
      cases h
      exact .inr (.inl ⟨dto, key, rfl, fun _ => hnone, .inl rfl, rfl⟩)
  · rename_i dto key
    cases h
    exact .inr (.inl ⟨dto, key, rfl, nofun, .inr rfl, rfl⟩)
  · rename_i dto response
    refine .inr (.inr (.inl ⟨dto, response, rfl, ?_⟩))
    dsimp only at h
    split at h
    · rename_i key hkey
      split at h
      · rename_i hstatus
        cases h
        rw [status_mapSubmissionResponse] at hstatus
        exact ⟨by rw [hkey], .inl ⟨key, hkey, hstatus, rfl⟩⟩
      · rename_i hstatus
        cases h
        rw [status_mapSubmissionResponse] at hstatus
        exact ⟨by rw [hkey], .inr ⟨.inr (of_not_not hstatus), rfl⟩⟩
    · rename_i hkey
      cases h
      exact ⟨by rw [hkey], .inr ⟨.inl hkey, rfl⟩⟩
  · rename_i dto
    cases h
    exact .inr (.inr (.inr (.inl ⟨dto, rfl, rfl⟩)))
  · rename_i dto key result
    cases h
    exact .inr (.inr (.inr (.inr (.inl ⟨dto, key, result, rfl, rfl, rfl⟩))))
  · rename_i dto key result
    cases h
    exact .inr (.inr (.inr (.inr (.inr ⟨dto, key, result, rfl, rfl, rfl⟩))))
  · cases h

theorem closed_next {k : String × String} (h : sdk.next s.shared p outcome = some q)
    (hk : view.closed s.shared k) : view.closed q.1 k := by
  rcases next_cases h with ⟨-, -, -, -, -, -, rfl⟩ | ⟨-, -, -, -, -, rfl⟩ |
    ⟨dto, response, -, hq, -⟩ | ⟨-, -, rfl⟩ | ⟨dto, key, result, -, -, rfl⟩ | ⟨-, -, -, -, -, rfl⟩
  · exact hk
  · exact hk
  · rw [hq]
    exact hk
  · exact hk
  · show (Function.update s.shared.redis (redisKey key) (some result) (redisKey k.1)).isSome
    rw [Function.update_apply]
    split
    · rfl
    · exact hk
  · exact hk

theorem accepted_append {shared : State} (send : Send) :
    State.accepted { shared with sends := shared.sends ++ [send] } =
      shared.accepted ++ send.accepted.toList := by
  rw [State.accepted, List.filterMap_append]
  cases hsend : send.accepted with
  | none => rw [List.filterMap_cons_none hsend]; rfl
  | some k => rw [List.filterMap_cons_some hsend]; rfl

theorem inHand_sendTransaction {key : String} (hkey : dto.key = some key) :
    view.inHand (.sendTransaction dto) = some ((key, dto.signedXdr), false) := by
  show dto.key.map _ = _
  rw [hkey]
  rfl

theorem inHand_sendTransaction_none (hkey : dto.key = none) :
    view.inHand (.sendTransaction dto) = none := by
  show dto.key.map _ = _
  rw [hkey]
  rfl

/-- What holds of a request: its result is that of a submission of its own envelope. -/
def Sdk.CallSound (sdk : Sdk) (requests : List SubmitTxDto) (s : State) : Call → Prop
  | .get dto key => dto ∈ requests ∧ dto.key = some key
  | .sendTransaction dto => dto ∈ requests
  | .set dto key result => dto ∈ requests ∧ dto.key = some key ∧ sdk.Describes s dto result
  | .returned dto result => sdk.Describes s dto result
  | .threw _ _ => True

/-- **What a step of `submit` does** with a key and an envelope in hand. -/
theorem move_next (hclear : sdk.Undisturbed s p outcome) (hp : sdk.CallSound requests s.shared p)
    (h : sdk.next s.shared p outcome = some q) : view.Move s p q := by
  rcases next_cases h with ⟨dto, key, result, rfl, -, -, rfl⟩ |
    ⟨dto, key, rfl, hnone, houtcome, rfl⟩ | ⟨dto, response, rfl, hq, hcall⟩ | ⟨dto, rfl, rfl⟩ |
    ⟨dto, key, result, rfl, -, rfl⟩ | ⟨dto, key, result, rfl, rfl, rfl⟩
  · exact .stay rfl rfl
  · -- nothing was found
    rcases prepare_cases sdk dto with hprep | ⟨error, hprep⟩
    · have hfree : s.shared.redis (redisKey key) = none ∧ view.Free s (key, dto.signedXdr) := by
        rcases houtcome with rfl | rfl
        · have hnone := hnone rfl
          exact ⟨hnone, hclear hnone⟩
        · exact hclear hprep
      refine .take (key, dto.signedXdr) rfl rfl ?_ ?_ hfree.2
      · rw [hprep]
        exact inHand_sendTransaction hp.2
      · show ¬ (s.shared.redis (redisKey key)).isSome = true
        rw [hfree.1]
        exact Bool.false_ne_true
    · exact .stay rfl (by rw [hprep]; rfl)
  · -- the network has answered
    have hlog : view.log q.1 = view.log s.shared ++
        (Send.mk dto.key dto.signedXdr response).accepted.toList := by
      rw [hq]
      exact accepted_append _
    rcases hcall with ⟨key, hkey, hstatus, hset⟩ | ⟨hnone, hreturned⟩
    · have hsend : (Send.mk dto.key dto.signedXdr response).accepted =
          some (key, dto.signedXdr) := by
        rw [Send.accepted, if_neg hstatus, hkey]
        rfl
      rw [hsend] at hlog
      exact .act (key, dto.signedXdr) hlog (inHand_sendTransaction hkey) (by rw [hset]; rfl)
    · have hsend : (Send.mk dto.key dto.signedXdr response).accepted = none := by
        rcases hnone with hkey | hstatus
        · rw [Send.accepted, hkey]
          split <;> rfl
        · exact if_pos hstatus
      rw [hsend, Option.toList_none, List.append_nil] at hlog
      cases hkey : dto.key with
      | none => exact .stay hlog (by rw [hreturned, inHand_sendTransaction_none hkey]; rfl)
      | some key =>
        exact .release (key, dto.signedXdr) false hlog (inHand_sendTransaction hkey)
          (by rw [hreturned]; rfl) nofun
  · -- the network cannot be reached
    cases hkey : dto.key with
    | none => exact .stay rfl (inHand_sendTransaction_none hkey).symm
    | some key =>
      exact .release (key, dto.signedXdr) false rfl (inHand_sendTransaction hkey) rfl nofun
  · -- the result is stored
    refine .release (key, dto.signedXdr) true rfl rfl rfl fun _ => ?_
    show (Function.update s.shared.redis (redisKey key) (some result) (redisKey key)).isSome
    rw [Function.update_self]
    rfl
  · exact absurd hclear id

/-- What is stored under a key is the result of a submission for a request with this key. -/
def Sdk.Stored (sdk : Sdk) (requests : List SubmitTxDto) (s : State) : Prop :=
  ∀ key result, s.redis (redisKey key) = some result →
    ∃ dto ∈ requests, dto.key = some key ∧ sdk.Describes s dto result

theorem Sdk.Describes.mono {shared shared' : State} {result : SubmitResult}
    (h : sdk.Describes shared dto result) (hsends : shared.sends ⊆ shared'.sends) :
    sdk.Describes shared' dto result := by
  obtain ⟨send, hsend, hown, hresult⟩ := h
  exact ⟨send, hsends hsend, hown, hresult⟩

theorem Sdk.CallSound.mono {shared shared' : State} (h : sdk.CallSound requests shared p)
    (hsends : shared.sends ⊆ shared'.sends) : sdk.CallSound requests shared' p := by
  cases p with
  | get dto key => exact h
  | sendTransaction dto => exact h
  | set dto key result =>
    obtain ⟨hdto, hkey, hdescribes⟩ := h
    exact ⟨hdto, hkey, hdescribes.mono hsends⟩
  | returned dto result => exact h.mono hsends
  | threw dto error => trivial

theorem Sdk.Stored.mono {shared shared' : State} (h : sdk.Stored requests shared)
    (hredis : shared'.redis = shared.redis) (hsends : shared.sends ⊆ shared'.sends) :
    sdk.Stored requests shared' := by
  intro key result hfound
  rw [hredis] at hfound
  obtain ⟨dto, hdto, hkey, hdescribes⟩ := h key result hfound
  exact ⟨dto, hdto, hkey, hdescribes.mono hsends⟩

theorem callSound_prepare (shared : State) (hdto : dto ∈ requests) :
    sdk.CallSound requests shared (sdk.prepare dto) := by
  rcases prepare_cases sdk dto with hprep | ⟨error, hprep⟩ <;> rw [hprep]
  · exact hdto
  · trivial

theorem redisKey_injective : Function.Injective redisKey :=
  fun _ _ h => (String.append_right_inj _).mp h

theorem eq_of_cached {result : SubmitResult} (h : result.cached = none) :
    { result with cached := none } = result := by
  rw [← h]

theorem sends_next (h : sdk.next s.shared p outcome = some q) : s.shared.sends ⊆ q.1.sends := by
  rcases next_cases h with ⟨-, -, -, -, -, -, rfl⟩ | ⟨-, -, -, -, -, rfl⟩ |
    ⟨dto, response, -, hq, -⟩ | ⟨-, -, rfl⟩ | ⟨-, -, -, -, -, rfl⟩ | ⟨-, -, -, -, -, rfl⟩
  case inr.inr.inl =>
    rw [hq]
    exact List.subset_append_left ..
  all_goals exact List.Subset.refl _

/-- **A step answers for its own envelope.** -/
theorem sound_next (hone : OneEnvelope requests) (hclear : sdk.Undisturbed s p outcome)
    (hs : sdk.Stored requests s.shared) (hp : sdk.CallSound requests s.shared p)
    (h : sdk.next s.shared p outcome = some q) :
    sdk.Stored requests q.1 ∧ sdk.CallSound requests q.1 q.2 := by
  rcases next_cases h with ⟨dto, key, result, rfl, rfl, hfound, rfl⟩ |
    ⟨dto, key, rfl, -, -, rfl⟩ | ⟨dto, response, rfl, hq, hcall⟩ | ⟨dto, -, rfl⟩ |
    ⟨dto, key, result, rfl, -, rfl⟩ | ⟨dto, key, result, rfl, rfl, rfl⟩
  · -- what was found was stored for a request with the same key, and so for the same envelope
    obtain ⟨hdto, hkey⟩ := hp
    obtain ⟨dto', hdto', hkey', send, hsend, hown, hresult⟩ := hs key result hfound
    have hsame : dto'.signedXdr = dto.signedXdr :=
      hone dto' hdto' dto hdto (by rw [hkey']; rfl) (hkey'.trans hkey.symm)
    exact ⟨hs, send, hsend, hown.trans hsame, hresult⟩
  · exact ⟨hs, callSound_prepare _ hp.1⟩
  · -- the result is that of the submission
    have hmem : Send.mk dto.key dto.signedXdr response ∈ q.1.sends := by
      rw [hq]
      exact List.mem_append_right _ (List.mem_singleton_self _)
    have hdescribes : sdk.Describes q.1 dto (sdk.mapSubmissionResponse response) :=
      ⟨_, hmem, rfl, eq_of_cached (cached_mapSubmissionResponse response)⟩
    refine ⟨hs.mono (by rw [hq]) (sends_next h), ?_⟩
    rcases hcall with ⟨key, hkey, -, hset⟩ | ⟨-, hreturned⟩
    · rw [hset]
      exact ⟨hp, hkey, hdescribes⟩
    · rw [hreturned]
      exact hdescribes
  · exact ⟨hs, trivial⟩
  · -- the result is stored for the key of the request alone
    obtain ⟨hdto, hkey, hdescribes⟩ := hp
    refine ⟨?_, hdescribes⟩
    intro key' result' hfound
    change Function.update s.shared.redis _ _ (redisKey key') = _ at hfound
    by_cases hsame : key' = key
    · rw [hsame, Function.update_self] at hfound
      cases hfound
      exact ⟨dto, hdto, hsame ▸ hkey, hdescribes⟩
    · rw [Function.update_of_ne (redisKey_injective.ne hsame)] at hfound
      exact hs key' result' hfound
  · exact absurd hclear id

/-! ## The run -/

theorem sound_of_reach (hone : OneEnvelope requests)
    (h : sdk.machine.Reach (sdk.SubmitClear requests) s) :
    sdk.Stored requests s.shared ∧ ∀ p ∈ s.calls, sdk.CallSound requests s.shared p := by
  refine Concurrent.Reach.sharedInvariant (J := sdk.CallSound requests) ?_ ?_ ?_ ?_ h
  · rintro s rfl key result hfound
    cases hfound
  · intro s dto q hdto hs hq
    change (match dto.key with | some key => _ | none => _) = _ at hq
    split at hq
    · rename_i hkey
      cases hq
      exact ⟨hs, ⟨hdto, hkey⟩, fun _ _ hp => hp⟩
    · cases hq
      exact ⟨hs, callSound_prepare _ hdto, fun _ _ hp => hp⟩
  · intro s i outcome p q hl hcall hs hp hq
    obtain ⟨hs', hp'⟩ := sound_next hone (hl p hcall) hs hp hq
    exact ⟨hs', hp', fun _ _ hp => hp.mono (sends_next hq)⟩
  · rintro - e
    cases e

/-- **A transaction is submitted once.**  If no key is used for two envelopes, and no request looks
for its key while another one has the same key and envelope in hand, then an envelope is accepted
once under a key, and every result is that of the request's own envelope. -/
theorem submit_once_of_reach (hone : OneEnvelope requests)
    (h : sdk.machine.Reach (sdk.SubmitClear requests) s) :
    (∀ key signedXdr, s.shared.accepted.count (key, signedXdr) ≤ 1) ∧
    ∀ dto result, .returned dto result ∈ s.calls → sdk.Describes s.shared dto result := by
  have honce : view.Once s := by
    refine Reach.once ?_ ?_ ?_ ?_ h
    · rintro s rfl
      rfl
    · intro s dto q _ hq
      change (match dto.key with | some key => _ | none => _) = _ at hq
      split at hq
      · cases hq
        exact ⟨rfl, rfl, fun _ hk => hk⟩
      · rename_i hkey
        cases hq
        refine ⟨?_, rfl, fun _ hk => hk⟩
        rcases prepare_cases sdk dto with hprep | ⟨error, hprep⟩
        · rw [hprep]
          exact inHand_sendTransaction_none hkey
        · rw [hprep]
          rfl
    · intro s i outcome p q hreach hl hcall hq
      have hp := (sound_of_reach hone hreach).2 p (List.mem_of_getElem? hcall)
      exact ⟨move_next (hl p hcall) hp hq, fun _ hk => closed_next hq hk⟩
    · rintro - e
      cases e
  exact ⟨fun key signedXdr => List.nodup_iff_count_le_one.mp honce.once (key, signedXdr),
    fun dto result hcall => (sound_of_reach hone h).2 _ hcall⟩

/-- Reads two signed envelopes that invoke a contract. -/
def twoEnvelopes : Sdk where
  fromXDR signedXdr :=
    if signedXdr = "AAAA" ∨ signedXdr = "BBBB" then some (.transaction ⟨1, ["invokeHostFunction"]⟩)
    else none
  resultName _ := none

/-- A request to submit the envelope under the one key. -/
def request (signedXdr : String) : SubmitTxDto :=
  ⟨signedXdr, some "550e8400-e29b-41d4-a716-446655440000"⟩

/-- The network takes the envelope with this hash. -/
def taken (hash : String) : Outcome := .response ⟨hash, .PENDING, none⟩

/-- The answer to a request whose envelope has this hash. -/
def answer (hash : String) (cached : Option Bool) : SubmitResult :=
  ⟨"submit", hash, .PENDING, none, none, none, cached⟩

theorem submit_once_retried :
    ∃ s, twoEnvelopes.machine.Reach (twoEnvelopes.SubmitClear [request "AAAA"]) s ∧
      .returned (request "AAAA") (answer "a" (some true)) ∈ s.calls ∧
        s.shared.accepted.count ("550e8400-e29b-41d4-a716-446655440000", "AAAA") ≤ 1 ∧
          twoEnvelopes.Describes s.shared (request "AAAA") (answer "a" (some true)) := by
  have hone : OneEnvelope [request "AAAA"] := by decide
  obtain ⟨s, h, hcalls⟩ : ∃ s,
      twoEnvelopes.machine.Reach (twoEnvelopes.SubmitClear [request "AAAA"]) s ∧
        .returned (request "AAAA") (answer "a" (some true)) ∈ s.calls :=
    Machine.exists_reach_of_runAll
      [.start (request "AAAA"), .next 0 .ok, .next 0 (taken "a"), .next 0 .ok,
        .start (request "AAAA"), .next 1 .ok]
      (s := ⟨.fresh, []⟩) ⟨rfl, rfl⟩ (by decide)
  obtain ⟨honce, hown⟩ := submit_once_of_reach hone h
  exact ⟨s, h, hcalls, honce _ _, hown _ _ hcalls⟩

/-- Two requests look for their key before either has stored a result; and a request with another
envelope is answered for the first one. -/
theorem submitted_twice_and_for_another :
    (∃ s, twoEnvelopes.machine.Reach Machine.always s ∧
      s.shared.accepted.count ("550e8400-e29b-41d4-a716-446655440000", "AAAA") = 2) ∧
    ∃ s, twoEnvelopes.machine.Reach Machine.always s ∧
      .returned (request "BBBB") (answer "a" (some true)) ∈ s.calls ∧
        ¬ twoEnvelopes.Describes s.shared (request "BBBB") (answer "a" (some true)) := by
  refine ⟨?_, ?_⟩
  · exact Machine.exists_reach_of_runAll
      [.start (request "AAAA"), .start (request "AAAA"), .next 0 .ok, .next 1 .ok,
        .next 0 (taken "a"), .next 1 (.response ⟨"a", .DUPLICATE, none⟩)]
      (s := ⟨.fresh, []⟩) ⟨rfl, rfl⟩ (by decide)
  · exact Machine.exists_reach_of_runAll
      [.start (request "AAAA"), .next 0 .ok, .next 0 (taken "a"), .next 0 .ok,
        .start (request "BBBB"), .next 1 .ok]
      (s := ⟨.fresh, []⟩) ⟨rfl, rfl⟩ (by decide)

end NiffyInsure.Backend.Submissions
