import NiffyInsure.Backend.Webhooks

/-!
# The idempotency keys of outbound webhooks

`OutboundWebhookService` adds one job for each subscriber.  Its idempotency key, which the worker
sends as `X-Idempotency-Key`, is that of the caller with the first 16 digits of the `base64url` of
the subscriber's URL behind it.

* `posted_key`: every request for a job carries the key of the job.
* `same_delivery_iff`: two deliveries with the same key are the same one, unless their URLs differ
  behind the first 12 bytes only.
-/

namespace NiffyInsure.Backend.WebhookKeys

open Webhooks RetryQueue

/-! ## What is enqueued -/

/-- `enqueueForEvent`, for one subscriber. -/
structure Delivery where
  eventType : String
  targetUrl : String
  payload : String
  /-- The key that the caller passes. -/
  idempotencyKey : String
  deriving DecidableEq

/-- The key of the job. -/
def jobKey (idempotencyKey targetUrl : String) : String :=
  idempotencyKey ++ ":" ++ String.ofList ((Js.base64url targetUrl).toList.take 16)

def Delivery.job (d : Delivery) : OutboundWebhookJob where
  targetUrl := d.targetUrl
  eventType := d.eventType
  idempotencyKey := jobKey d.idempotencyKey d.targetUrl
  payload := d.payload
  secret := none
  attempt := none

/-- The variable of the environment that has the subscribers. -/
structure SubscriberEnv where
  CLAIM_FILED_WEBHOOK_URLS : String
  POLICY_EXPIRED_WEBHOOK_URLS : String
  VOTE_CAST_WEBHOOK_URLS : String
  TREASURY_ALERT_WEBHOOK_URLS : String

def getSubscriberUrls (raw : String) : List String :=
  ((split ',' raw).map Js.trimString).filter (· ≠ "")

/-- The deliveries of the jobs that are added. -/
def enqueueForEvent (eventType : String) (subscriberUrls : List String)
    (payload idempotencyKey : String) : List Delivery :=
  subscriberUrls.map fun targetUrl => { eventType, targetUrl, payload, idempotencyKey }

def deliverClaimFiled (env : SubscriberEnv) : String → String → List Delivery :=
  enqueueForEvent "claim.filed" (getSubscriberUrls env.CLAIM_FILED_WEBHOOK_URLS)

def deliverPolicyExpired (env : SubscriberEnv) : String → String → List Delivery :=
  enqueueForEvent "policy.expired" (getSubscriberUrls env.POLICY_EXPIRED_WEBHOOK_URLS)

def deliverVoteCast (env : SubscriberEnv) : String → String → List Delivery :=
  enqueueForEvent "vote.cast" (getSubscriberUrls env.VOTE_CAST_WEBHOOK_URLS)

def deliverTreasuryAlert (env : SubscriberEnv) : String → String → List Delivery :=
  enqueueForEvent "treasury.balance_low" (getSubscriberUrls env.TREASURY_ALERT_WEBHOOK_URLS)

/-! ## What is sent -/

/-- The value of a header. -/
def header (request : HttpRequest) (name : String) : Option String :=
  (request.headers.find? (·.1 = name)).map (·.2)

/-- The request was made for the delivery, in one of the attempts of its job. -/
def SentFor (request : HttpRequest) (d : Delivery) : Prop :=
  ∃ (ext : Outside) (env : Webhooks.Env) (boot : Boot) (deliveries : List WebhookDelivery)
    (dlq : List WebhookDlq), ∃ post ∈ (ext.finished env boot deliveries dlq d.job).state.posted,
      post.1 = request

variable {ext : Outside} {env : Webhooks.Env} {boot : Boot} {job : OutboundWebhookJob}
  {s s' : Webhooks.World}

/-- The requests that were made all carry the key. -/
def Carry (key : String) (s : Webhooks.World) : Prop :=
  ∀ post ∈ s.posted, header post.1 "X-Idempotency-Key" = some key

theorem header_request (job : OutboundWebhookJob) (timestamp : ℕ) (signature : String) :
    header (job.request timestamp signature) "X-Idempotency-Key" = some job.idempotencyKey := rfl

theorem header_plainRequest (job : OutboundWebhookJob) :
    header job.plainRequest "X-Idempotency-Key" = some job.idempotencyKey := rfl

theorem Carry.append {key : String} {request : HttpRequest} {response : HttpPostResponse}
    (h : Carry key s) (hnew : header request "X-Idempotency-Key" = some key)
    (hposted : s'.posted = s.posted ++ [(request, response)]) : Carry key s' := by
  intro post hpost
  rw [hposted, List.mem_append, List.mem_singleton] at hpost
  rcases hpost with hpost | rfl
  · exact h post hpost
  · exact hnew

theorem posted_deliver (ext : Outside) (dlq : Bool) (job : OutboundWebhookJob)
    (s : Webhooks.World) : ∃ timestamp signature response, ((ext.deliver dlq job).run s).2.posted =
      s.posted ++ [(job.request timestamp signature, response)] := by
  have hrecord (result : DeliveryResult) (attempt : ℕ) (c : Prop) [Decidable c]
    (w : Webhooks.World) :
      ((if c then do add job attempt result.error; pure result else pure result :
        StateM Webhooks.World DeliveryResult) w).2.posted = w.posted := by
    split <;> rfl
  exact ⟨_, _, _, hrecord ..⟩

theorem carry_of_processor {n : ℕ} {result : Except String Unit}
    (hrun : ext.processor env boot job n s = (result, s')) (h : Carry job.idempotencyKey s) :
    Carry job.idempotencyKey s' := by
  by_cases hsize : env.tooLarge job
  · obtain ⟨e, hsame⟩ := processor_of_tooLarge ext boot hsize n s
    rw [hsame] at hrun
    cases hrun
    exact h
  · cases hboot : boot.jobProcessor with
    | false =>
      rw [processor_of_axios hsize hboot] at hrun
      cases hrun
      exact h.append (header_plainRequest job) rfl
    | true =>
      rw [Outside.processor, worker_of_not_tooLarge hsize, if_pos hboot] at hrun
      obtain rfl : _ = s' := congrArg Prod.snd hrun
      obtain ⟨_, _, _, hposted⟩ :=
        posted_deliver ext boot.dlq { job with attempt := some (n + 1) } s
      exact h.append (header_request _ _ _) hposted

/-- **Every request carries the key of its job.** -/
theorem posted_key (ext : Outside) (env : Webhooks.Env) (boot : Boot)
    (deliveries : List WebhookDelivery) (dlq : List WebhookDlq) (job : OutboundWebhookJob) :
    Carry job.idempotencyKey (ext.finished env boot deliveries dlq job).state := by
  have hstart : Carry job.idempotencyKey ⟨[], deliveries, dlq⟩ := by
    intro post hpost
    cases hpost
  obtain ⟨n, s₁, s₂, -, hcarry, hrun, hend⟩ | ⟨s', hcarry, hend⟩ :=
    finish_cases env.MAX_OUTBOUND_ATTEMPTS (fun _ => Carry job.idempotencyKey)
      (fun _ _ _ _ h hrun => carry_of_processor hrun h) hstart
  · rw [Outside.finished, hend]
    exact carry_of_processor hrun hcarry
  · rw [Outside.finished, hend]
    exact hcarry

theorem SentFor.header_eq {request : HttpRequest} {d : Delivery} (h : SentFor request d) :
    header request "X-Idempotency-Key" = some (jobKey d.idempotencyKey d.targetUrl) := by
  obtain ⟨ext, env, boot, deliveries, dlq, post, hpost, rfl⟩ := h
  exact posted_key ext env boot deliveries dlq d.job post hpost

theorem exists_sentFor (d : Delivery) : ∃ request, SentFor request d := by
  let env : Webhooks.Env := ⟨none, none, some ""⟩
  have hsize : ¬ env.tooLarge d.job := by
    rintro ⟨limit, hlimit, -⟩
    cases hlimit
  let ext : Outside := ⟨fun _ => .ok 200, fun _ => 0, fun _ _ => ""⟩
  let boot : Boot := ⟨true, true⟩
  obtain ⟨request, row, hend⟩ := @one_attempt env boot d.job ext [] [] hsize rfl
  refine ⟨request, ext, env, boot, [], [], (request, .ok 200), ?_, rfl⟩
  rw [hend]
  exact List.mem_singleton.mpr rfl

/-! ## What the key tells -/

theorem append_cons_inj_of_last {c : Char} {a b tail tail' : List Char} (h : c ∉ tail)
    (h' : c ∉ tail') (heq : a ++ c :: tail = b ++ c :: tail') : a = b ∧ tail = tail' := by
  rcases List.append_eq_append_iff.mp heq with ⟨between, rfl, hrest⟩ | ⟨between, rfl, hrest⟩
  · cases between with
    | nil => exact ⟨(List.append_nil a).symm, (List.cons.inj hrest).2⟩
    | cons d between =>
      obtain ⟨-, rfl⟩ := List.cons.inj hrest
      exact absurd (List.mem_append_right between List.mem_cons_self) h
  · cases between with
    | nil => exact ⟨List.append_nil b, (List.cons.inj hrest).2.symm⟩
    | cons d between =>
      obtain ⟨-, rfl⟩ := List.cons.inj hrest
      exact absurd (List.mem_append_right between List.mem_cons_self) h'

theorem colon_not_mem_take (url : String) (n : ℕ) : ':' ∉ (Js.base64url url).toList.take n := by
  intro hmem
  have hdigit : ∀ m, Js.base64urlDigits.getD m 'A' ≠ ':' := by
    intro m h
    rw [List.getD_eq_getElem?_getD] at h
    cases hm : Js.base64urlDigits[m]? with
    | none =>
      rw [hm] at h
      exact absurd h (by decide)
    | some digit =>
      rw [hm, Option.getD_some] at h
      exact absurd (h ▸ List.mem_of_getElem? hm) (by decide)
  have hall := List.mem_of_mem_take hmem
  rw [Js.base64url, String.toList_ofList] at hall
  obtain ⟨m, -, hm⟩ := List.mem_map.mp hall
  exact hdigit m hm

theorem jobKey_eq_iff {key key' url url' : String} :
    jobKey key url = jobKey key' url' ↔
      key = key' ∧ (Js.bytesOf url).take 12 = (Js.bytesOf url').take 12 := by
  rw [← Js.take_base64url_iff url url' 4]
  constructor
  · intro h
    have hcolon : ":".toList = [':'] := rfl
    have hchars := congrArg String.toList h
    simp only [jobKey, String.toList_append, String.toList_ofList, hcolon, List.append_assoc,
      List.singleton_append] at hchars
    obtain ⟨hkey, hdigits⟩ := append_cons_inj_of_last (colon_not_mem_take url 16)
      (colon_not_mem_take url' 16) hchars
    exact ⟨String.toList_inj.mp hkey, hdigits⟩
  · rintro ⟨rfl, hdigits⟩
    rw [jobKey, jobKey, hdigits]

/-- Of the jobs for one event no two have the same key, exactly if no two of the URLs have the same
first 12 bytes. -/
theorem nodup_jobKeys_iff (eventType : String) (subscriberUrls : List String)
    (payload idempotencyKey : String) :
    ((enqueueForEvent eventType subscriberUrls payload idempotencyKey).map
      fun d => d.job.idempotencyKey).Nodup ↔
    (subscriberUrls.map fun url => (Js.bytesOf url).take 12).Nodup := by
  rw [enqueueForEvent, List.map_map, List.Nodup, List.Nodup, List.pairwise_map, List.pairwise_map]
  refine List.Pairwise.iff fun url url' => ?_
  show jobKey _ url ≠ jobKey _ url' ↔ _
  rw [Ne, jobKey_eq_iff, and_iff_right rfl]

/-- **What a key identifies.**  That the keys of two requests are the same means that the caller's
keys and the URLs are, exactly if, for one caller's key, the URLs do not first differ behind their
first 12 bytes: `https://` and four more. -/
theorem same_delivery_iff {d e : Delivery} {request request' : HttpRequest} (hd : SentFor request d)
    (he : SentFor request' e) :
    (header request "X-Idempotency-Key" = header request' "X-Idempotency-Key" →
      d.idempotencyKey = e.idempotencyKey ∧ d.targetUrl = e.targetUrl) ↔
    (d.idempotencyKey = e.idempotencyKey →
      (Js.bytesOf d.targetUrl).take 12 = (Js.bytesOf e.targetUrl).take 12 →
        d.targetUrl = e.targetUrl) := by
  rw [hd.header_eq, he.header_eq, Option.some_inj, jobKey_eq_iff]
  constructor
  · intro h hkey hbytes
    exact (h ⟨hkey, hbytes⟩).2
  · rintro h ⟨hkey, hbytes⟩
    exact ⟨hkey, h hkey hbytes⟩

/-- Two URLs that differ in their ninth byte. -/
theorem same_delivery_iff_hosts :
    let a : Delivery := ⟨"claim.filed", "https://a.example/h", "{}", "claim_filed:1"⟩
    let b : Delivery := ⟨"claim.filed", "https://b.example/h", "{}", "claim_filed:1"⟩
    ∃ request request', SentFor request a ∧ SentFor request' b ∧
      header request "X-Idempotency-Key" ≠ header request' "X-Idempotency-Key" := by
  intro a b
  obtain ⟨request, hrequest⟩ := exists_sentFor a
  obtain ⟨request', hrequest'⟩ := exists_sentFor b
  refine ⟨request, request', hrequest, hrequest', fun hkey => ?_⟩
  have hsame := (same_delivery_iff hrequest hrequest').mpr (by decide) hkey
  exact absurd hsame.2 (by decide)

/-- The subscribers `subs1.example` and `subs2.example` of one event get the same key. -/
theorem keys_collide : ¬ ∀ (d e : Delivery) (request request' : HttpRequest), SentFor request d →
    SentFor request' e →
    header request "X-Idempotency-Key" = header request' "X-Idempotency-Key" →
      d.idempotencyKey = e.idempotencyKey ∧ d.targetUrl = e.targetUrl := by
  intro h
  let d : Delivery := ⟨"claim.filed", "https://subs1.example/hook", "{}", "claim_filed:txhash123"⟩
  let e : Delivery := ⟨"claim.filed", "https://subs2.example/hook", "{}", "claim_filed:txhash123"⟩
  obtain ⟨request, hd⟩ := exists_sentFor d
  obtain ⟨request', he⟩ := exists_sentFor e
  have hkeys : jobKey d.idempotencyKey d.targetUrl = jobKey e.idempotencyKey e.targetUrl :=
    jobKey_eq_iff.mpr ⟨rfl, by decide⟩
  have hsame := h d e request request' hd he (by rw [hd.header_eq, he.header_eq, hkeys])
  exact absurd hsame.2 (by decide)

end NiffyInsure.Backend.WebhookKeys
