import NiffyInsure.Lib.JsString
import NiffyInsure.Lib.RetryQueue

/-!
# Outbound webhooks

A job of the queue `outbound-webhooks` is processed by the worker, with the processor that
`WebhooksModule` sets or, without it, by a plain POST, until an attempt returns.  The processor
awaits `WebhookDeliveryService.deliver`, which never throws, and drops its result.

What the subscriber answers, the time and the HMAC are parameters.  Writes to the database succeed.

* `one_attempt`: with the processor there is one attempt, whatever the subscriber answers.
* `finish_webhookDlq`: no job gets into the dead-letter queue.
* `settled_iff`: a job is delivered or dead-lettered exactly if its payload is not too large and the
  first response (without the processor: one of those to all the attempts) is a success.
-/

namespace NiffyInsure.Backend.Webhooks

open RetryQueue

/-! ## Settings -/

/-- The environment variables. -/
structure Env where
  MAX_OUTBOUND_WEBHOOK_ATTEMPTS : Option String
  QUEUE_RETRY_MAP : Option String
  MAX_OUTBOUND_WEBHOOK_SIZE_BYTES : Option String

inductive BackoffType where
  | exponential
  | fixed
  deriving DecidableEq

structure QueueRetryConfig where
  maxAttempts : ℕ
  type : BackoffType
  delay : ℕ
  deriving DecidableEq

/-- Its entry of `QUEUE_RETRY_DEFAULTS`. -/
def outboundDefault : QueueRetryConfig := ⟨5, .exponential, 1000⟩

/-- `raw.split(c)`. -/
def split (c : Char) (raw : String) : List String := (raw.toList.splitOn c).map String.ofList

/-- A number above 0. -/
def parsePositive (raw : String) : Option ℕ :=
  ((Js.parseInt10 raw).filter (0 < ·)).map Int.toNat

def parseBackoffType (raw : String) : Option BackoffType :=
  if raw = "exponential" then some .exponential
  else if raw = "fixed" then some .fixed
  else none

/-- The three parts of a value. -/
def parseConfig : List String → Option QueueRetryConfig
  | [attempts, type, delay] => do
    let maxAttempts ← parsePositive attempts
    let backoffType ← parseBackoffType type
    let delay ← parsePositive delay
    pure ⟨maxAttempts, backoffType, delay⟩
  | _ => none

/-- One entry: what stands before the first `=` and what follows it. -/
def parseEntry (entry : String) : Option (String × QueueRetryConfig) :=
  let trimmed := (Js.trimString entry).toList
  let name := Js.trimString (String.ofList (trimmed.takeWhile (· ≠ '=')))
  let value := Js.trimString (String.ofList ((trimmed.dropWhile (· ≠ '=')).drop 1))
  if '=' ∉ trimmed ∨ name = "" ∨ value = "" then none
  else (parseConfig ((split ',' value).map Js.trimString)).map (name, ·)

/-- A later entry takes the place of an earlier one. -/
def parseRetryMap (raw : Option String) (queue : String) : Option QueueRetryConfig :=
  (((split ';' (raw.getD "")).filterMap parseEntry).reverse.find? (·.1 = queue)).map (·.2)

def getQueueRetryConfig (env : Env) : QueueRetryConfig :=
  (parseRetryMap env.QUEUE_RETRY_MAP "outbound-webhooks").getD outboundDefault

def Env.MAX_OUTBOUND_ATTEMPTS (env : Env) : ℕ :=
  (env.MAX_OUTBOUND_WEBHOOK_ATTEMPTS.bind parsePositive).getD (getQueueRetryConfig env).maxAttempts

/-- `none` for `NaN`. -/
def Env.MAX_SIZE_BYTES (env : Env) : Option Int :=
  Js.parseInt10 (env.MAX_OUTBOUND_WEBHOOK_SIZE_BYTES.getD "1048576")

/-! ## One attempt -/

structure OutboundWebhookJob where
  targetUrl : String
  eventType : String
  idempotencyKey : String
  /-- The text of `JSON.stringify`. -/
  payload : String
  secret : Option String
  attempt : Option ℕ
  deriving DecidableEq

/-- A status, or the message of an error of the transport. -/
abbrev HttpPostResponse := Except String ℕ

structure HttpRequest where
  url : String
  body : String
  headers : List (String × String)
  deriving DecidableEq

structure WebhookDelivery where
  targetUrl : String
  eventType : String
  idempotencyKey : String
  attempt : ℕ
  success : Bool
  responseCode : Option ℕ
  errorMessage : Option String
  deriving DecidableEq

structure WebhookDlq where
  targetUrl : String
  eventType : String
  idempotencyKey : String
  payload : String
  attempts : ℕ
  lastError : Option String
  deriving DecidableEq

/-- What has been posted for the job, with the responses, and the two tables. -/
structure World where
  posted : List (HttpRequest × HttpPostResponse)
  webhookDelivery : List WebhookDelivery
  webhookDlq : List WebhookDlq

/-- How the backend has booted: whether `WebhooksModule` has set its processor, and whether its
delivery service has the dead-letter queue. -/
structure Boot where
  jobProcessor : Bool
  dlq : Bool

/-- What is outside: the response to each post, the time of it, and the HMAC. -/
structure Outside where
  response : ℕ → HttpPostResponse
  seconds : ℕ → ℕ
  hmacHex : String → String → String

structure DeliveryResult where
  success : Bool
  responseCode : Option ℕ
  error : Option String
  signature : String

def DEFAULT_MAX_ATTEMPTS : ℕ := 5

def isExhausted (attempt : ℕ) : Bool := DEFAULT_MAX_ATTEMPTS ≤ attempt

/-- `status >= 200 && status < 300`. -/
def isSuccess (status : ℕ) : Bool := 200 ≤ status && status < 300

variable (ext : Outside)

def Outside.signRawBody (secret rawBody : String) (timestamp : ℕ) : String :=
  "t=" ++ toString timestamp ++ ",v1=" ++
    ext.hmacHex secret (toString timestamp ++ "." ++ rawBody)

def Outside.post (request : HttpRequest) : StateM World HttpPostResponse := fun world =>
  let response := ext.response world.posted.length
  (response, { world with posted := world.posted ++ [(request, response)] })

def recordDelivery (row : WebhookDelivery) : StateM World Unit :=
  modify fun world => { world with webhookDelivery := world.webhookDelivery ++ [row] }

/-- `WebhookDlqService.add`. -/
def add (job : OutboundWebhookJob) (attempts : ℕ) (lastError : Option String) : StateM World Unit :=
  modify fun world =>
    { world with
      webhookDlq := world.webhookDlq ++
        [⟨job.targetUrl, job.eventType, job.idempotencyKey, job.payload, attempts, lastError⟩] }

def HttpPostResponse.result (signature : String) : HttpPostResponse → DeliveryResult
  | .ok status =>
    { success := isSuccess status
      responseCode := some status
      error := if isSuccess status then none else some ("HTTP " ++ toString status)
      signature }
  | .error message => { success := false, responseCode := none, error := some message, signature }

/-- No signature without a secret. -/
def Outside.signature (job : OutboundWebhookJob) (timestamp : ℕ) : String :=
  match job.secret.filter (· ≠ "") with
  | some secret => ext.signRawBody secret job.payload timestamp
  | none => ""

/-- The signed request. -/
def OutboundWebhookJob.request (job : OutboundWebhookJob) (timestamp : ℕ) (signature : String) :
    HttpRequest where
  url := job.targetUrl
  body := job.payload
  headers :=
    [("Content-Type", "application/json"), ("X-Event-Type", job.eventType),
      ("X-Idempotency-Key", job.idempotencyKey), ("X-Niffy-Timestamp", toString timestamp)] ++
    if signature = "" then [] else [("X-Niffy-Signature", signature)]

def Outside.deliver (dlq : Bool) (job : OutboundWebhookJob) : StateM World DeliveryResult := do
  let timestamp := ext.seconds (← get).posted.length
  let signature := ext.signature job timestamp
  let attempt := job.attempt.getD 1
  let response ← ext.post (job.request timestamp signature)
  let result := response.result signature
  recordDelivery ⟨job.targetUrl, job.eventType, job.idempotencyKey, attempt, result.success,
    result.responseCode, result.error⟩
  if ¬ result.success ∧ isExhausted attempt ∧ dlq then
    add job attempt result.error
  pure result

/-- What `axios.post` makes of a response, by default. -/
def HttpPostResponse.settle : HttpPostResponse → Except String Unit
  | .ok status =>
    if isSuccess status then pure ()
    else throw ("Request failed with status code " ++ toString status)
  | .error message => throw message

/-- The unsigned request. -/
def OutboundWebhookJob.plainRequest (job : OutboundWebhookJob) : HttpRequest where
  url := job.targetUrl
  body := job.payload
  headers :=
    [("Content-Type", "application/json"), ("X-Event-Type", job.eventType),
      ("X-Idempotency-Key", job.idempotencyKey)]

def Outside.axiosPost (job : OutboundWebhookJob) : ExceptT String (StateM World) Unit :=
  ExceptT.mk do
    let response ← ext.post job.plainRequest
    pure response.settle

def getPayloadSizeBytes (job : OutboundWebhookJob) : ℕ := job.payload.utf8ByteSize

def Env.tooLarge (env : Env) (job : OutboundWebhookJob) : Prop :=
  ∃ limit ∈ env.MAX_SIZE_BYTES, limit < getPayloadSizeBytes job

/-- `outboundWebhookWorker`. -/
def Outside.worker (env : Env) (boot : Boot) (job : OutboundWebhookJob) (attemptsMade : ℕ) :
    ExceptT String (StateM World) Unit := do
  if let some limit := env.MAX_SIZE_BYTES then
    if limit < getPayloadSizeBytes job then
      throw ("Webhook payload size (" ++ toString (getPayloadSizeBytes job) ++
        " bytes) exceeds limit (" ++ toString limit ++ " bytes)")
  if boot.jobProcessor then
    let _ ← liftM (ext.deliver boot.dlq { job with attempt := some (attemptsMade + 1) })
  else
    ext.axiosPost job

def Outside.processor (env : Env) (boot : Boot) (job : OutboundWebhookJob) :
    Processor String World :=
  fun attemptsMade world => (ext.worker env boot job attemptsMade).run.run world

/-- What has become of a job when the queue has finished with it. -/
def Outside.finished (env : Env) (boot : Boot) (deliveries : List WebhookDelivery)
    (dlq : List WebhookDlq) (job : OutboundWebhookJob) : Finished World :=
  finish (ext.processor env boot job) 0 env.MAX_OUTBOUND_ATTEMPTS ⟨[], deliveries, dlq⟩

/-! ## How often a job is attempted -/

variable {ext} {env : Env} {boot : Boot} {job : OutboundWebhookJob}
  {deliveries : List WebhookDelivery} {dlq : List WebhookDlq}

theorem parsePositive_pos {raw : String} {n : ℕ} (h : parsePositive raw = some n) : 0 < n := by
  obtain ⟨i, hi, rfl⟩ := Option.map_eq_some_iff.mp h
  have hpos := (Option.filter_eq_some_iff.mp hi).2
  simp only [decide_eq_true_eq] at hpos
  omega

theorem parseConfig_pos {parts : List String} {config : QueueRetryConfig}
    (h : parseConfig parts = some config) : 0 < config.maxAttempts := by
  rw [parseConfig.eq_def] at h
  split at h
  · obtain ⟨maxAttempts, hmax, h⟩ := Option.bind_eq_some_iff.mp h
    obtain ⟨type, -, h⟩ := Option.bind_eq_some_iff.mp h
    obtain ⟨delay, -, h⟩ := Option.bind_eq_some_iff.mp h
    cases h
    exact parsePositive_pos hmax
  · cases h

theorem parseEntry_pos {text : String} {entry : String × QueueRetryConfig}
    (h : parseEntry text = some entry) : 0 < entry.2.maxAttempts := by
  obtain ⟨-, h⟩ := Option.ite_none_left_eq_some.mp h
  obtain ⟨config, hconfig, rfl⟩ := Option.map_eq_some_iff.mp h
  exact parseConfig_pos hconfig

theorem parseRetryMap_pos {raw : Option String} {queue : String} {config : QueueRetryConfig}
    (h : parseRetryMap raw queue = some config) : 0 < config.maxAttempts := by
  obtain ⟨entry, hfind, rfl⟩ := Option.map_eq_some_iff.mp h
  have hmem := List.mem_reverse.mp (List.mem_of_find?_eq_some hfind)
  obtain ⟨text, -, hentry⟩ := List.mem_filterMap.mp hmem
  exact parseEntry_pos hentry

theorem getQueueRetryConfig_pos (env : Env) : 0 < (getQueueRetryConfig env).maxAttempts := by
  rw [getQueueRetryConfig]
  cases hmap : parseRetryMap env.QUEUE_RETRY_MAP "outbound-webhooks" with
  | none => exact Nat.succ_pos 4
  | some config => exact parseRetryMap_pos hmap

theorem maxOutboundAttempts_pos (env : Env) : 0 < env.MAX_OUTBOUND_ATTEMPTS := by
  rw [Env.MAX_OUTBOUND_ATTEMPTS]
  cases hlegacy : env.MAX_OUTBOUND_WEBHOOK_ATTEMPTS.bind parsePositive with
  | none => exact getQueueRetryConfig_pos env
  | some n =>
    obtain ⟨raw, -, hn⟩ := Option.bind_eq_some_iff.mp hlegacy
    exact parsePositive_pos hn

/-! ## What one attempt does -/

def HttpPostResponse.isSuccess : HttpPostResponse → Bool
  | .ok status => Webhooks.isSuccess status
  | .error _ => false

instance (env : Env) (job : OutboundWebhookJob) : Decidable (env.tooLarge job) :=
  inferInstanceAs (Decidable (∃ limit ∈ env.MAX_SIZE_BYTES, _))

theorem processor_of_tooLarge (ext : Outside) (boot : Boot) (hsize : env.tooLarge job) (n : ℕ)
    (world : World) : ∃ e, ext.processor env boot job n world = (.error e, world) := by
  obtain ⟨limit, hlimit, hlt⟩ := hsize
  rw [Outside.processor, Outside.worker, Option.mem_def.mp hlimit]
  simp only [hlt, if_true]
  exact ⟨_, rfl⟩

theorem worker_of_not_tooLarge (hsize : ¬ env.tooLarge job) (n : ℕ) :
    ext.worker env boot job n =
      if boot.jobProcessor then do
        let _ ← liftM (ext.deliver boot.dlq { job with attempt := some (n + 1) })
      else ext.axiosPost job := by
  rw [Outside.worker]
  cases hlimit : env.MAX_SIZE_BYTES with
  | none => rfl
  | some limit =>
    have hle : ¬ limit < getPayloadSizeBytes job := fun hlt => hsize ⟨limit, hlimit, hlt⟩
    simp only [hle, if_false]

/-- The response to a post. -/
def Outside.reply (ext : Outside) (world : World) : HttpPostResponse :=
  ext.response world.posted.length

/-- The delivery service never throws: the attempt returns, whatever the response.  It is the first
one, which is not the one after which it gives up. -/
theorem processor_of_jobProcessor (ext : Outside) (hsize : ¬ env.tooLarge job)
    (hboot : boot.jobProcessor = true) (world : World) :
    ∃ request row, ext.processor env boot job 0 world =
      (.ok (), ⟨world.posted ++ [(request, ext.reply world)], world.webhookDelivery ++ [row],
        world.webhookDlq⟩) := by
  rw [Outside.processor, worker_of_not_tooLarge hsize, if_pos hboot]
  have hearly (result : DeliveryResult) :
      ¬ (¬ result.success = true ∧ isExhausted 1 = true ∧ boot.dlq = true) := fun h =>
    absurd h.2.1 (by decide)
  simp only [Outside.deliver, Option.getD_some, Nat.zero_add, hearly, if_false]
  exact ⟨_, _, rfl⟩

theorem processor_of_axios (hsize : ¬ env.tooLarge job) (hboot : boot.jobProcessor = false) (n : ℕ)
    (world : World) :
    ext.processor env boot job n world = ((ext.reply world).settle,
      { world with posted := world.posted ++ [(job.plainRequest, ext.reply world)] }) := by
  rw [Outside.processor, worker_of_not_tooLarge hsize, hboot]
  rfl

theorem HttpPostResponse.settle_eq_ok {response : HttpPostResponse} :
    response.settle = .ok () ↔ response.isSuccess = true := by
  cases response with
  | error message => exact iff_of_false nofun nofun
  | ok status =>
    show (if Webhooks.isSuccess status then _ else _) = _ ↔ Webhooks.isSuccess status = true
    split
    · rename_i h
      exact iff_of_true rfl h
    · rename_i h
      exact iff_of_false nofun h

/-! ## How a job ends -/

/-- With the processor there is **one attempt**, whatever the subscriber answers. -/
theorem one_attempt (ext : Outside) (deliveries : List WebhookDelivery) (dlq : List WebhookDlq)
    (hsize : ¬ env.tooLarge job) (hboot : boot.jobProcessor = true) :
    ∃ request row, ext.finished env boot deliveries dlq job =
      ⟨1, .completed, [(request, ext.response 0)], deliveries ++ [row], dlq⟩ := by
  obtain ⟨request, row, hrun⟩ :=
    processor_of_jobProcessor ext hsize hboot ⟨[], deliveries, dlq⟩
  obtain ⟨left, hleft⟩ := Nat.exists_eq_add_one_of_ne_zero (maxOutboundAttempts_pos env).ne'
  refine ⟨request, row, ?_⟩
  rw [Outside.finished, hleft]
  exact finish_of_returns hrun

theorem finished_of_tooLarge (hsize : env.tooLarge job) :
    ext.finished env boot deliveries dlq job =
      ⟨env.MAX_OUTBOUND_ATTEMPTS, .failed, [], deliveries, dlq⟩ := by
  have hthrow (n : ℕ) (s : World) (e : String) (s' : World) (hs : s = ⟨[], deliveries, dlq⟩)
      (hrun : ext.processor env boot job n s = (.error e, s')) : s' = ⟨[], deliveries, dlq⟩ := by
    obtain ⟨e', hrun'⟩ := processor_of_tooLarge ext boot hsize n s
    rw [hrun'] at hrun
    cases hrun
    exact hs
  obtain ⟨n, s₁, s₂, -, -, hrun, -⟩ | ⟨s', rfl, hend⟩ :=
    finish_cases env.MAX_OUTBOUND_ATTEMPTS (fun _ (s : World) => s = ⟨[], deliveries, dlq⟩) hthrow
      (show (⟨[], deliveries, dlq⟩ : World) = ⟨[], deliveries, dlq⟩ from rfl)
  · obtain ⟨e, hrun'⟩ := processor_of_tooLarge ext boot hsize n s₁
    rw [hrun'] at hrun
    cases hrun
  · rw [Nat.zero_add] at hend
    exact hend

/-- The job has been posted `n` times, and no response was a success. -/
structure Outside.Failed (ext : Outside) (deliveries : List WebhookDelivery) (dlq : List WebhookDlq)
    (n : ℕ) (world : World) : Prop where
  length_posted : world.posted.length = n
  webhookDelivery : world.webhookDelivery = deliveries
  webhookDlq : world.webhookDlq = dlq
  posted : ∀ post ∈ world.posted, post.2.isSuccess = false
  response : ∀ i < n, (ext.response i).isSuccess = false

theorem failed_succ (hsize : ¬ env.tooLarge job) (hboot : boot.jobProcessor = false) {n : ℕ}
    {s s' : World} {e : String} (h : ext.Failed deliveries dlq n s)
    (hrun : ext.processor env boot job n s = (.error e, s')) :
    ext.Failed deliveries dlq (n + 1) s' := by
  rw [processor_of_axios hsize hboot, Prod.mk.injEq] at hrun
  obtain ⟨hreply, rfl⟩ := hrun
  have hfail : (ext.reply s).isSuccess = false := by
    rw [← Bool.not_eq_true, ← HttpPostResponse.settle_eq_ok, hreply]
    exact nofun
  constructor
  · show (s.posted ++ [_]).length = n + 1
    rw [List.length_append, h.length_posted]
    rfl
  · exact h.webhookDelivery
  · exact h.webhookDlq
  · intro post hpost
    obtain hpost | hpost := List.mem_append.mp hpost
    · exact h.posted post hpost
    · obtain rfl := List.mem_singleton.mp hpost
      exact hfail
  · intro i hi
    obtain hi | rfl := Nat.lt_succ_iff_lt_or_eq.mp hi
    · exact h.response i hi
    · rw [← h.length_posted]
      exact hfail

/-- Without the processor the job is attempted until a response is a success. -/
theorem finished_of_axios (ext : Outside) (deliveries : List WebhookDelivery)
    (dlq : List WebhookDlq) (hsize : ¬ env.tooLarge job) (hboot : boot.jobProcessor = false) :
    (∃ n < env.MAX_OUTBOUND_ATTEMPTS, ∃ world, ext.Failed deliveries dlq n world ∧
      (ext.response n).isSuccess = true ∧
      ext.finished env boot deliveries dlq job = ⟨n + 1, .completed,
        { world with posted := world.posted ++ [(job.plainRequest, ext.response n)] }⟩) ∨
    ∃ world, ext.Failed deliveries dlq env.MAX_OUTBOUND_ATTEMPTS world ∧
      ext.finished env boot deliveries dlq job = ⟨env.MAX_OUTBOUND_ATTEMPTS, .failed, world⟩ := by
  have hstart : ext.Failed deliveries dlq 0 ⟨[], deliveries, dlq⟩ :=
    ⟨rfl, rfl, rfl, by simp, fun i hi => absurd hi i.not_lt_zero⟩
  obtain ⟨n, s₁, s₂, hn, hfailed, hrun, hend⟩ | ⟨s', hfailed, hend⟩ :=
    finish_cases env.MAX_OUTBOUND_ATTEMPTS (ext.Failed deliveries dlq)
      (fun _ _ _ _ => failed_succ hsize hboot) hstart
  · rw [Nat.zero_add] at hn
    rw [processor_of_axios hsize hboot, Prod.mk.injEq, HttpPostResponse.settle_eq_ok] at hrun
    obtain ⟨hreply, rfl⟩ := hrun
    have hresponse : ext.reply s₁ = ext.response n := by
      rw [Outside.reply, hfailed.length_posted]
    rw [hresponse] at hreply hend
    exact .inl ⟨n, hn, s₁, hfailed, hreply, hend⟩
  · rw [Nat.zero_add] at hfailed hend
    exact .inr ⟨s', hfailed, hend⟩

theorem Outside.Failed.not_delivered {n : ℕ} {world : World}
    (h : ext.Failed deliveries dlq n world) : ¬ ∃ post ∈ world.posted, post.2.isSuccess = true := by
  rintro ⟨post, hpost, hsuccess⟩
  rw [h.posted post hpost] at hsuccess
  cases hsuccess

/-- **The dead-letter queue stays as it is**, whatever the subscriber answers. -/
theorem finish_webhookDlq (ext : Outside) (env : Env) (boot : Boot)
    (deliveries : List WebhookDelivery) (dlq : List WebhookDlq) (job : OutboundWebhookJob) :
    (ext.finished env boot deliveries dlq job).state.webhookDlq = dlq := by
  by_cases hsize : env.tooLarge job
  · rw [finished_of_tooLarge hsize]
  · cases hboot : boot.jobProcessor with
    | true =>
      obtain ⟨request, row, hend⟩ := one_attempt ext deliveries dlq hsize hboot
      rw [hend]
    | false =>
      obtain ⟨n, -, world, hfailed, -, hend⟩ | ⟨world, hfailed, hend⟩ :=
        finished_of_axios ext deliveries dlq hsize hboot
      · rw [hend]
        exact hfailed.webhookDlq
      · rw [hend]
        exact hfailed.webhookDlq

/-! ## What is claimed of a job -/

/-- Some attempt has received a success. -/
def Delivered (done : Finished World) : Prop := ∃ post ∈ done.state.posted, post.2.isSuccess = true

/-- How many entries for the job have got into the dead-letter queue. -/
def deadLettered (job : OutboundWebhookJob) (dlq : List WebhookDlq) (done : Finished World) : ℕ :=
  (done.state.webhookDlq.drop dlq.length).countP fun entry =>
    entry.targetUrl = job.targetUrl ∧ entry.eventType = job.eventType ∧
      entry.idempotencyKey = job.idempotencyKey ∧ entry.payload = job.payload

/-- The job is delivered, or has been attempted `attempts` times and dead-lettered once; and it is
not reported complete otherwise. -/
structure Settled (attempts : ℕ) (job : OutboundWebhookJob) (dlq : List WebhookDlq)
    (done : Finished World) : Prop where
  finished : Delivered done ∨ done.attemptsMade = attempts ∧ deadLettered job dlq done = 1
  completed : done.status = .completed → Delivered done ∨ 0 < deadLettered job dlq done

theorem deadLettered_finished :
    deadLettered job dlq (ext.finished env boot deliveries dlq job) = 0 := by
  rw [deadLettered, finish_webhookDlq, List.drop_length]
  rfl

theorem settled_iff_delivered :
    Settled env.MAX_OUTBOUND_ATTEMPTS job dlq (ext.finished env boot deliveries dlq job) ↔
      Delivered (ext.finished env boot deliveries dlq job) := by
  refine ⟨fun h => h.finished.resolve_right fun hlettered => ?_, fun h => ⟨.inl h, fun _ => .inl h⟩⟩
  rw [deadLettered_finished] at hlettered
  cases hlettered.2

/-- **A job is delivered or dead-lettered** exactly if its payload is not too large and the first
response (without the processor: one of those to all the attempts) is a success. -/
theorem settled_iff (ext : Outside) (env : Env) (boot : Boot) (deliveries : List WebhookDelivery)
    (dlq : List WebhookDlq) (job : OutboundWebhookJob) :
    Settled env.MAX_OUTBOUND_ATTEMPTS job dlq (ext.finished env boot deliveries dlq job) ↔
      ¬ env.tooLarge job ∧ if boot.jobProcessor then (ext.response 0).isSuccess = true
        else ∃ n < env.MAX_OUTBOUND_ATTEMPTS, (ext.response n).isSuccess = true := by
  rw [settled_iff_delivered, Delivered]
  by_cases hsize : env.tooLarge job
  · rw [finished_of_tooLarge hsize]
    exact iff_of_false (fun ⟨_, hpost, _⟩ => absurd hpost List.not_mem_nil) fun h => h.1 hsize
  · rw [and_iff_right hsize]
    cases hboot : boot.jobProcessor with
    | true =>
      obtain ⟨request, row, hend⟩ := one_attempt ext deliveries dlq hsize hboot
      rw [hend, if_pos rfl]
      constructor
      · rintro ⟨post, hpost, hsuccess⟩
        obtain rfl := List.mem_singleton.mp hpost
        exact hsuccess
      · exact fun h => ⟨_, List.mem_singleton_self _, h⟩
    | false =>
      rw [if_neg Bool.false_ne_true]
      obtain ⟨n, hn, world, -, hsuccess, hend⟩ | ⟨world, hfailed, hend⟩ :=
        finished_of_axios ext deliveries dlq hsize hboot
      · rw [hend]
        exact iff_of_true ⟨_, List.mem_append_right _ (List.mem_singleton_self _), hsuccess⟩
          ⟨n, hn, hsuccess⟩
      · rw [hend]
        refine iff_of_false hfailed.not_delivered ?_
        rintro ⟨n, hn, hsuccess⟩
        rw [hfailed.response n hn] at hsuccess
        cases hsuccess

/-- A claim has been filed. -/
def claimFiled : OutboundWebhookJob where
  targetUrl := "https://partners.example.com/hooks"
  eventType := "claim.filed"
  idempotencyKey := "claim_filed:tx123"
  payload := "\x7b\x7d"
  secret := none
  attempt := none

/-- The subscriber is down when it is called first, and up again afterwards. -/
def downAtFirst : Outside where
  response n := if n = 0 then .ok 503 else .ok 200
  seconds _ := 0
  hmacHex _ _ := ""

/-- No variable is set. -/
def unset : Env := ⟨none, none, none⟩

/-- The job is reported complete after the one attempt that has failed. -/
theorem completed_undelivered :
    (downAtFirst.finished unset ⟨true, true⟩ [] [] claimFiled).status = .completed ∧
      (downAtFirst.finished unset ⟨true, true⟩ [] [] claimFiled).attemptsMade = 1 ∧
      ¬ Settled unset.MAX_OUTBOUND_ATTEMPTS claimFiled []
        (downAtFirst.finished unset ⟨true, true⟩ [] [] claimFiled) := by
  have hsize : ¬ unset.tooLarge claimFiled := by decide
  have hboot : (⟨true, true⟩ : Boot).jobProcessor = true := rfl
  obtain ⟨request, row, hend⟩ := one_attempt downAtFirst [] [] hsize hboot
  rw [settled_iff_delivered, Delivered, hend]
  refine ⟨rfl, rfl, ?_⟩
  rintro ⟨post, hpost, hsuccess⟩
  obtain rfl := List.mem_singleton.mp hpost
  cases hsuccess

end NiffyInsure.Backend.Webhooks
