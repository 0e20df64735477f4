import NiffyInsure.Lib.JsString
import NiffyInsure.Lib.ReplayCache
import Mathlib.Data.List.Infix
import Mathlib.Data.Set.Operations

/-!
# Idempotent requests

`IdempotencyMiddleware` keeps the answer to a request in Redis under a hash of its method, its path,
its `Idempotency-Key` and its subject, and replays it to the next request with the same ones.  It
runs before the guards set `req.user`, so that the subject is always `anon`.  `IpfsService.upload`
does the like with `IdempotencyService`, under the key of the request alone or, without one, under
the hash of the file.

The hash, the removal of EXIF data and the gateways are parameters.

* `upload_refused`: as it is called, `validateFileMetadata` refuses every file.
* `replayed_faithfully_of_reach`: of the requests with one method, path, key and wallet one runs,
  and an answer that is replayed is that to a request of the same wallet, and for the same file, if
  no two wallets use one key, no key is used for two files, and no request looks while another one
  is about to run or to keep its answer.
-/

namespace NiffyInsure.Backend.Idempotency

open ReplayCache

inductive HttpException where
  | badRequest (message : String)
  | serviceUnavailable (message : String)
  deriving DecidableEq

/-! ## The middleware -/

/-- A request, with the wallet that the guards authenticate.  The name of a method has no colon. -/
structure Request where
  method : String
  path : String
  idempotencyKey : Option String
  wallet : Option String
  colon_notMem : ':' ∉ method.toList
  deriving DecidableEq

/-- What the handler (or a guard, or a filter) answers, and whether by `res.json`. -/
structure Answer where
  status : Nat
  body : String
  json : Bool
  deriving DecidableEq

def isHexDigit (c : Char) : Bool := c.isDigit || ('a' ≤ c && c ≤ 'f') || ('A' ≤ c && c ≤ 'F')

/-- `UUID_V4_RE`. -/
def isUuidV4 (key : String) : Bool :=
  key.toList.length = 36 && key.toList.zipIdx.all fun (c, i) =>
    if i = 8 ∨ i = 13 ∨ i = 18 ∨ i = 23 then c = '-'
    else if i = 14 then c = '4'
    else if i = 19 then c = '8' || c = '9' || c = 'a' || c = 'b' || c = 'A' || c = 'B'
    else isHexDigit c

/-- `req.user`, when the middleware runs. -/
def Request.user (_ : Request) : Option String := none

def Request.subject (req : Request) : String := req.user.getD "anon"

/-- What of a request goes into the hash. -/
def scope (method path rawKey subject : String) : String :=
  method ++ ":" ++ path ++ ":" ++ rawKey ++ ":" ++ subject

/-- The header, when it counts as one. -/
def Request.rawKey (req : Request) : Option String := req.idempotencyKey.filter (· ≠ "")

/-- `use`, up to the lookup. -/
def use (hash : String → String) (req : Request) : Except HttpException (Option String) :=
  match req.rawKey with
  | none => pure none
  | some rawKey =>
    if isUuidV4 rawKey then
      pure (some ("idempotency:" ++ hash (scope req.method req.path rawKey req.subject)))
    else
      throw (.badRequest
        "Idempotency-Key must be a valid UUID v4 (xxxxxxxx-xxxx-4xxx-yxxx-xxxxxxxxxxxx)")

/-- What requests have in common of which one is to be handled. -/
structure Ident where
  method : String
  path : String
  rawKey : String
  wallet : Option String
  deriving DecidableEq

def Request.ident (req : Request) : Option Ident :=
  req.rawKey.map fun rawKey => ⟨req.method, req.path, rawKey, req.wallet⟩

/-- The middleware: it keeps an answer that is no error of the server, if it goes through
`res.json`. -/
def middleware (hash : String → String) :
    Service Request String Ident Answer HttpException Answer where
  accept := use hash
  run _ answer := pure answer
  counts answer := answer.status < 500
  keeps answer := answer.json && answer.status < 500
  touches := false
  touch answer := answer
  ident := Request.ident
  keyOf i := "idempotency:" ++ hash (scope i.method i.path i.rawKey "anon")
  keyOf_ident := by
    intro req i k hident haccept
    obtain ⟨rawKey, hkey, rfl⟩ := Option.map_eq_some_iff.mp hident
    rw [use, hkey] at haccept
    dsimp only at haccept
    split at haccept
    · cases haccept
      rfl
    · cases haccept
  Same req req' := req.method = req'.method ∧ req.path = req'.path ∧ req.rawKey = req'.rawKey ∧
    req.wallet = req'.wallet

/-! ## Uploads -/

/-- A request to upload a file, with the wallet that the guards authenticate. -/
structure Upload where
  buffer : List UInt8
  filename : String
  mimeType : String
  idempotencyKey : Option String
  stripExif : Option Bool
  scanForViruses : Bool
  wallet : Option String
  deriving DecidableEq

structure Response where
  cid : String
  gatewayUrls : List String
  uploadedAt : String
  contentSha256Hex : String
  deriving DecidableEq

structure IdempotencyRecord where
  key : String
  contentHash : String
  response : Response
  createdAt : String
  hitCount : Nat
  deriving DecidableEq

/-- The settings, the name of the form field that `upload` passes on, and the parameters. -/
structure Config where
  fieldname : Option String
  maxFileSize : Nat
  maxFileSizeFormatted : String
  minFileSize : Nat
  sha256Hex : List UInt8 → String
  stripExifMetadata : List UInt8 → String → List UInt8
  generateGatewayUrls : String → List String

def ALLOWED_MIME_TYPES : List String :=
  ["image/jpeg", "image/png", "image/gif", "image/webp", "image/svg+xml", "image/bmp", "image/tiff",
    "application/pdf"]

def DANGEROUS_EXTENSIONS : List String :=
  [".exe", ".bat", ".cmd", ".msi", ".dll", ".so", ".dylib", ".sh", ".bash", ".zsh", ".fish", ".ps1",
    ".psm1", ".js", ".mjs", ".cjs", ".ts", ".tsx", ".jsx", ".php", ".phtml", ".phar", ".py", ".pyw",
    ".pyc", ".rb", ".rake", ".gem", ".jar", ".war", ".ear", ".jsp", ".jspx", ".asp",
    ".aspx", ".cgi",
    ".pl", ".perl", ".sql", ".sqlite", ".db", ".htaccess", ".htpasswd", ".env", ".config", ".conf"]

def getFileExtension (filename : String) : String :=
  let reversed := filename.toList.reverse
  let tail := reversed.takeWhile (· ≠ '.')
  if tail.length = reversed.length ∨ tail.length + 1 = reversed.length then ""
  else String.ofList ('.' :: tail.reverse)

/-- `toLowerCase`, as far as an extension can come out as one of those in the list: besides the
ASCII letters, the Kelvin sign becomes `k`. -/
def toLowerCase (s : String) : String :=
  String.ofList (s.toList.map fun c => if c.toNat = 0x212A then 'k' else c.toLower)

def Config.validateFileMetadata (config : Config) (fieldname : Option String) (upload : Upload) :
    Except HttpException Unit := do
  if (fieldname.filter (· ≠ "")).isNone then throw (.badRequest "File field name is required")
  if (Js.trimString upload.filename).toList = [] then throw (.badRequest "File name is required")
  if upload.mimeType = "" then throw (.badRequest "File MIME type is required")
  if upload.buffer.length < config.minFileSize then
    throw (.badRequest
      ("File is too small. Minimum size is " ++ toString config.minFileSize ++ " byte(s)."))
  if config.maxFileSize < upload.buffer.length then
    throw (.badRequest
      ("File is too large. Maximum size is " ++ config.maxFileSizeFormatted ++ "."))
  if upload.mimeType ∉ ALLOWED_MIME_TYPES then
    throw (.badRequest ("File type \"" ++ upload.mimeType ++ "\" is not allowed. Allowed types: " ++
      ", ".intercalate ALLOWED_MIME_TYPES))
  let extension := toLowerCase (getFileExtension upload.filename)
  if extension ∈ DANGEROUS_EXTENSIONS then
    throw (.badRequest
      ("File extension \"" ++ extension ++ "\" is not allowed for security reasons."))

/-- The bytes that are uploaded. -/
def Config.processed (config : Config) (upload : Upload) : List UInt8 :=
  if upload.stripExif ≠ some false then config.stripExifMetadata upload.buffer upload.mimeType
  else upload.buffer

def suspiciousPatterns : List (List UInt8) :=
  ["eval(atob(", "<script>eval(", "function()\x7b"].map fun pattern =>
    pattern.toList.map fun c => UInt8.ofNat c.toNat

/-- No pattern occurs in the bytes. -/
def scanForViruses (buffer : List UInt8) : Bool :=
  suspiciousPatterns.all fun pattern => ¬ pattern <:+: buffer

/-- The key of the request, when it counts as one. -/
def Upload.key (upload : Upload) : Option String := upload.idempotencyKey.filter (· ≠ "")

/-- The key of `IdempotencyService.check`. -/
def Config.checkKey (config : Config) (upload : Upload) : String :=
  match upload.key with
  | some key => "ipfs:idempotency:explicit:" ++ key
  | none => "ipfs:idempotency:upload:" ++ config.sha256Hex upload.buffer

/-- `upload`, up to the lookup. -/
def Config.upload (config : Config) (upload : Upload) : Except HttpException (Option String) := do
  config.validateFileMetadata config.fieldname upload
  if upload.scanForViruses ∧ ¬ scanForViruses (config.processed upload) then
    throw (.badRequest
      "File rejected: potential security threat detected (Suspicious code pattern detected)")
  pure (some (config.checkKey upload))

theorem Config.upload_eq_ok {config : Config} {upload : Upload} {k : Option String}
    (h : config.upload upload = .ok k) : k = some (config.checkKey upload) := by
  rw [Config.upload] at h
  cases hvalid : config.validateFileMetadata config.fieldname upload with
  | error error =>
    rw [hvalid] at h
    cases h
  | ok _ =>
    rw [hvalid] at h
    change (if _ then _ else _) = _ at h
    split at h
    · cases h
    · cases h
      rfl

/-- **Every upload is refused** when no field name is passed on, as in the source. -/
theorem upload_refused {config : Config} (hfield : config.fieldname = none) (upload : Upload) :
    config.upload upload = .error (.badRequest "File field name is required") := by
  rw [Config.upload, hfield]
  rfl

/-- What the provider chain comes to: the `cid` of the bytes, and the time; `none` where it
fails. -/
abbrev Provided := Option (String × String)

/-- `upload`, from the provider chain to the record that `storeResult` stores. -/
def Config.provide (config : Config) (upload : Upload) :
    Provided → Except HttpException IdempotencyRecord
  | none => throw (.serviceUnavailable "Failed to upload to IPFS")
  | some (cid, now) => pure
    { key := config.checkKey upload
      contentHash := config.sha256Hex upload.buffer
      response := ⟨cid, config.generateGatewayUrls cid, now,
        config.sha256Hex (config.processed upload)⟩
      createdAt := now
      hitCount := 0 }

structure UploadIdent where
  idempotencyKey : String
  wallet : Option String
  deriving DecidableEq

def Upload.ident (upload : Upload) : Option UploadIdent :=
  upload.key.map (⟨·, upload.wallet⟩)

/-- The uploads.  A record that is found is written back with one more hit. -/
def Config.uploads (config : Config) :
    Service Upload String UploadIdent IdempotencyRecord HttpException Provided where
  accept := config.upload
  run := config.provide
  counts _ := true
  keeps _ := true
  touches := true
  touch record := { record with hitCount := record.hitCount + 1 }
  ident := Upload.ident
  keyOf i := "ipfs:idempotency:explicit:" ++ i.idempotencyKey
  keyOf_ident := by
    intro upload i k hident haccept
    obtain ⟨key, hkey, rfl⟩ := Option.map_eq_some_iff.mp hident
    rw [Config.upload_eq_ok haccept, Config.checkKey, hkey]
  Same upload upload' := upload.wallet = upload'.wallet ∧
    config.processed upload = config.processed upload'

/-! ## What is claimed of them -/

/-- The response is that to an upload of the same bytes by the same wallet, and the hash is that of
the bytes. -/
def Config.Describes (config : Config) (s : State Upload String IdempotencyRecord) (upload : Upload)
    (response : Response) : Prop :=
  response.contentSha256Hex = config.sha256Hex (config.processed upload) ∧
    ∃ run ∈ s.runs, run.1.wallet = upload.wallet ∧
      config.processed run.1 = config.processed upload ∧ run.2.response = response

/-- No two wallets use one key on one method and path. -/
def OneWallet (requests : List Request) : Prop :=
  ∀ req ∈ requests, ∀ req' ∈ requests, req.rawKey.isSome → req.rawKey = req'.rawKey →
    req.method = req'.method → req.path = req'.path → req.wallet = req'.wallet

instance (requests : List Request) : Decidable (OneWallet requests) :=
  inferInstanceAs (Decidable (∀ req ∈ requests, ∀ req' ∈ requests, _))

/-- What goes into the hash for these requests. -/
def scopes (requests : List Request) : Set String :=
  {input | ∃ req ∈ requests, ∃ rawKey ∈ req.rawKey,
    input = scope req.method req.path rawKey req.subject}

/-- A key is used by one wallet for one file, and so is a file that comes without a key. -/
def OneFile (uploads : List Upload) : Prop :=
  ∀ upload ∈ uploads, ∀ upload' ∈ uploads, upload.key = upload'.key →
    (upload.key = none → upload.buffer = upload'.buffer) →
      upload.wallet = upload'.wallet ∧ upload.buffer = upload'.buffer ∧
        upload.mimeType = upload'.mimeType ∧
          (upload.stripExif = some false ↔ upload'.stripExif = some false)

instance (uploads : List Upload) : Decidable (OneFile uploads) :=
  inferInstanceAs (Decidable (∀ upload ∈ uploads, ∀ upload' ∈ uploads, _))

variable {hash : String → String} {config : Config} {requests : List Request}
  {uploads : List Upload}

/-! ## The keys -/

theorem append_cons_inj_of_first {c : Char} {a b tail tail' : List Char} (h : c ∉ a) (h' : c ∉ b)
    (heq : a ++ c :: tail = b ++ c :: tail') : a = b ∧ tail = tail' := by
  rcases List.append_eq_append_iff.mp heq with ⟨between, rfl, hrest⟩ | ⟨between, rfl, hrest⟩
  · cases between with
    | nil => exact ⟨(List.append_nil a).symm, (List.cons.inj hrest).2⟩
    | cons d between =>
      obtain ⟨rfl, -⟩ := List.cons.inj hrest
      exact absurd (List.mem_append_right a List.mem_cons_self) h'
  · cases between with
    | nil => exact ⟨List.append_nil b, (List.cons.inj hrest).2.symm⟩
    | cons d between =>
      obtain ⟨rfl, -⟩ := List.cons.inj hrest
      exact absurd (List.mem_append_right b List.mem_cons_self) h

theorem length_of_isUuidV4 {key : String} (h : isUuidV4 key) : key.toList.length = 36 := by
  rw [isUuidV4, Bool.and_eq_true, decide_eq_true_eq] at h
  exact h.1

theorem scope_inj {method path rawKey method' path' rawKey' subject : String}
    (hmethod : ':' ∉ method.toList) (hmethod' : ':' ∉ method'.toList) (hkey : isUuidV4 rawKey)
    (hkey' : isUuidV4 rawKey')
    (h : scope method path rawKey subject = scope method' path' rawKey' subject) :
    method = method' ∧ path = path' ∧ rawKey = rawKey' := by
  have hcolon : ":".toList = [':'] := rfl
  rw [scope, scope, String.append_left_inj, String.append_left_inj] at h
  have hchars := congrArg String.toList h
  rw [String.toList_append, String.toList_append (s := method' ++ _ ++ _ ++ _)] at hchars
  obtain ⟨hfront, hraw⟩ := List.append_inj' hchars
    ((length_of_isUuidV4 hkey).trans (length_of_isUuidV4 hkey').symm)
  simp only [String.toList_append, hcolon, List.append_assoc, List.singleton_append] at hfront
  obtain ⟨hm, hpath⟩ := append_cons_inj_of_first hmethod hmethod' hfront
  exact ⟨String.toList_inj.mp hm, String.toList_inj.mp (List.append_cancel_right hpath),
    String.toList_inj.mp hraw⟩

theorem use_eq_ok {req : Request} {k : String} (h : use hash req = .ok (some k)) :
    ∃ rawKey, req.rawKey = some rawKey ∧ isUuidV4 rawKey ∧
      k = "idempotency:" ++ hash (scope req.method req.path rawKey req.subject) := by
  rw [use] at h
  split at h
  · cases h
  · rename_i rawKey hraw
    split at h
    · rename_i huuid
      cases h
      exact ⟨rawKey, hraw, huuid, rfl⟩
    · cases h

theorem sameOfKey_middleware (hwallet : OneWallet requests)
    (hhash : Set.InjOn hash (scopes requests)) : (middleware hash).SameOfKey requests := by
  intro req hreq req' hreq' k haccept haccept'
  obtain ⟨rawKey, hraw, huuid, rfl⟩ := use_eq_ok haccept
  obtain ⟨rawKey', hraw', huuid', hk⟩ := use_eq_ok haccept'
  have hscope : scope req.method req.path rawKey req.subject =
      scope req'.method req'.path rawKey' req'.subject :=
    hhash ⟨req, hreq, rawKey, hraw, rfl⟩ ⟨req', hreq', rawKey', hraw', rfl⟩
      ((String.append_right_inj _).mp hk)
  obtain ⟨hmethod, hpath, rfl⟩ :=
    scope_inj req.colon_notMem req'.colon_notMem huuid huuid' hscope
  have hkeys : req.rawKey = req'.rawKey := hraw.trans hraw'.symm
  exact ⟨hmethod, hpath, hkeys,
    hwallet req hreq req' hreq' (by rw [hraw]; rfl) hkeys hmethod hpath⟩

theorem checkKey_of_key {upload : Upload} {key : String} (h : upload.key = some key) :
    config.checkKey upload = "ipfs:idempotency:explicit:" ++ key := by
  rw [Config.checkKey, h]

theorem checkKey_of_none {upload : Upload} (h : upload.key = none) :
    config.checkKey upload = "ipfs:idempotency:upload:" ++ config.sha256Hex upload.buffer := by
  rw [Config.checkKey, h]

theorem explicit_ne_upload (key hex : String) :
    "ipfs:idempotency:explicit:" ++ key ≠ "ipfs:idempotency:upload:" ++ hex := by
  intro h
  have hchar := congrArg (fun s => s.toList[17]?) h
  rw [String.toList_append, String.toList_append, List.getElem?_append_left (by decide),
    List.getElem?_append_left (by decide)] at hchar
  exact absurd hchar (by decide)

theorem key_of_checkKey_eq (hhash : Set.InjOn config.sha256Hex {buffer | ∃ upload ∈ uploads,
      buffer = upload.buffer}) {upload upload' : Upload} (hupload : upload ∈ uploads)
    (hupload' : upload' ∈ uploads) (h : config.checkKey upload = config.checkKey upload') :
    upload.key = upload'.key ∧ (upload.key = none → upload.buffer = upload'.buffer) := by
  cases hkey : upload.key with
  | some key =>
    rw [checkKey_of_key hkey] at h
    cases hkey' : upload'.key with
    | some key' =>
      rw [checkKey_of_key hkey', String.append_right_inj] at h
      exact ⟨congrArg some h, nofun⟩
    | none =>
      rw [checkKey_of_none hkey'] at h
      exact absurd h (explicit_ne_upload _ _)
  | none =>
    rw [checkKey_of_none hkey] at h
    cases hkey' : upload'.key with
    | some key' =>
      rw [checkKey_of_key hkey'] at h
      exact absurd h.symm (explicit_ne_upload _ _)
    | none =>
      rw [checkKey_of_none hkey', String.append_right_inj] at h
      exact ⟨rfl, fun _ => hhash ⟨upload, hupload, rfl⟩ ⟨upload', hupload', rfl⟩ h⟩

/-- Uploads that are looked for under one key are of one wallet, for the same bytes. -/
theorem sameOfKey_uploads (hfile : OneFile uploads)
    (hhash : Set.InjOn config.sha256Hex {buffer | ∃ upload ∈ uploads, buffer = upload.buffer}) :
    config.uploads.SameOfKey uploads := by
  intro upload hupload upload' hupload' k haccept haccept'
  have hcheck : config.checkKey upload = config.checkKey upload' :=
    Option.some.inj ((Config.upload_eq_ok haccept).symm.trans (Config.upload_eq_ok haccept'))
  obtain ⟨hkey, hnone⟩ := key_of_checkKey_eq hhash hupload hupload' hcheck
  obtain ⟨hwallet, hbuffer, hmime, hstrip⟩ := hfile upload hupload upload' hupload' hkey hnone
  refine ⟨hwallet, ?_⟩
  rw [Config.processed, Config.processed, hbuffer, hmime]
  exact if_congr (not_congr hstrip) rfl rfl

/-! ## The runs -/

theorem touched_middleware {a₀ a : Answer} (h : (middleware hash).Touched a₀ a) : a₀ = a := by
  obtain ⟨n, rfl⟩ := h
  exact (Function.iterate_fixed rfl n).symm

theorem touched_uploads {a₀ a : IdempotencyRecord} (h : config.uploads.Touched a₀ a) :
    a₀.response = a.response := by
  obtain ⟨n, rfl⟩ := h
  induction n with
  | zero => rfl
  | succ n ih =>
    rw [Function.iterate_succ_apply']
    exact ih

theorem contentSha256Hex_of_provide {upload : Upload} {provided : Provided}
    {record : IdempotencyRecord} (h : config.provide upload provided = .ok record) :
    record.response.contentSha256Hex = config.sha256Hex (config.processed upload) := by
  cases provided with
  | none => cases h
  | some provided =>
    cases h
    rfl

theorem describes_of_run {s : Concurrent.State (State Upload String IdempotencyRecord)
      (Call Upload String IdempotencyRecord HttpException)} {ok}
    (h : config.uploads.machine.Reach ok s) {run : Upload × IdempotencyRecord}
    (hrun : run ∈ s.shared.runs) {upload : Upload} {response : Response}
    (hwallet : run.1.wallet = upload.wallet)
    (hbytes : config.processed run.1 = config.processed upload)
    (hresponse : run.2.response = response) : config.Describes s.shared upload response := by
  obtain ⟨provided, hprovided⟩ := ran_of_reach h run hrun
  refine ⟨?_, run, hrun, hwallet, hbytes, hresponse⟩
  rw [← hresponse, ← hbytes]
  exact contentSha256Hex_of_provide hprovided

/-- **Requests run once, and are replayed faithfully.**  If no two wallets use one key on one method
and path (an upload key is used by one wallet for one file), the hash tells the requests apart, no
request looks while another one with the same key and wallet is about to run or to keep its answer,
and answers are kept, then of the requests with one method, path, key and wallet one is handled, and
every replayed answer is that to a request of the same wallet, for an upload also of the same
bytes. -/
theorem replayed_faithfully_of_reach (hash : String → String) (config : Config) :
    (∀ requests s, OneWallet requests → Set.InjOn hash (scopes requests) →
      (middleware hash).machine.Reach ((middleware hash).Clear requests) s →
        (∀ method path key wallet,
          ((middleware hash).log s.shared).count ⟨method, path, key, wallet⟩ ≤ 1) ∧
        ∀ req answer, .replied req answer ∈ s.calls →
          ∃ run ∈ s.shared.runs, run.1.wallet = req.wallet ∧ run.2 = answer) ∧
    ∀ uploads s, OneFile uploads →
      Set.InjOn config.sha256Hex {buffer | ∃ upload ∈ uploads, buffer = upload.buffer} →
        config.uploads.machine.Reach (config.uploads.Clear uploads) s →
          (∀ key wallet, (config.uploads.log s.shared).count ⟨key, wallet⟩ ≤ 1) ∧
          ∀ upload record, .replied upload record ∈ s.calls ∨ .answered upload record ∈ s.calls →
            config.Describes s.shared upload record.response := by
  refine ⟨fun requests s hwallet hhash h => ?_, fun uploads s hfile hhash h => ?_⟩
  · obtain ⟨honce, hreplied, -⟩ := Reach.once (sameOfKey_middleware hwallet hhash) h
    refine ⟨fun method path key wallet => honce ⟨method, path, key, wallet⟩, ?_⟩
    intro req answer hcall
    obtain ⟨run, hrun, ⟨-, -, -, hwallet⟩, htouched⟩ := hreplied req answer hcall
    exact ⟨run, hrun, hwallet.symm, touched_middleware htouched⟩
  · obtain ⟨honce, hreplied, hanswered⟩ := Reach.once (sameOfKey_uploads hfile hhash) h
    refine ⟨fun key wallet => honce ⟨key, wallet⟩, ?_⟩
    rintro upload record (hcall | hcall)
    · obtain ⟨run, hrun, ⟨hwallet, hbytes⟩, htouched⟩ := hreplied upload record hcall
      exact describes_of_run h hrun hwallet.symm hbytes.symm (touched_uploads htouched)
    · exact describes_of_run h (hanswered upload record hcall) rfl rfl rfl

/-- A request to submit a transaction, under the one key. -/
def submitAs (wallet : String) : Request :=
  ⟨"POST", "/api/tx/submit", some "550e8400-e29b-41d4-a716-446655440000", some wallet, by decide⟩

/-- The handler has submitted a transaction with this hash. -/
def submitted (hash : String) : Answer := ⟨200, hash, true⟩

/-- SHA-256, of the one key and of the one file. -/
def scopeDigest (input : String) : String :=
  if input = "POST:/api/tx/submit:550e8400-e29b-41d4-a716-446655440000:anon" then
    "05c804a326220c0f1797a0210aabcc39a27bee994875cbc657a65f696669f278"
  else ""

def fileDigest (buffer : List UInt8) : String :=
  if buffer = [0x25, 0x50, 0x44, 0x46] then
    "315d429b7714cedb6ad04ac31240145257692630457f3c88253c5beceac76027"
  else ""

/-- The settings, with a field name that is passed on. -/
def withFieldname : Config where
  fieldname := some "file"
  maxFileSize := 50 * 1024 * 1024
  maxFileSizeFormatted := "50 MB"
  minFileSize := 1
  sha256Hex := fileDigest
  stripExifMetadata buffer _ := buffer
  generateGatewayUrls cid := ["https://ipfs.io/ipfs/" ++ cid]

/-- Alice uploads the one file. -/
def evidence : Upload :=
  ⟨[0x25, 0x50, 0x44, 0x46], "a.pdf", "application/pdf", some "k", none, false, some "Alice"⟩

/-- The record of the upload, with its hits. -/
def kept (hitCount : Nat) : IdempotencyRecord where
  key := "ipfs:idempotency:explicit:k"
  contentHash := fileDigest evidence.buffer
  response := ⟨"bafy", ["https://ipfs.io/ipfs/bafy"], "t", fileDigest evidence.buffer⟩
  createdAt := "t"
  hitCount := hitCount

/-- Alice retries her request, and her upload. -/
theorem replayed_faithfully_retried :
    (∃ s, (middleware scopeDigest).machine.Reach
        ((middleware scopeDigest).Clear [submitAs "Alice"]) s ∧
      .replied (submitAs "Alice") (submitted "a") ∈ s.calls ∧
        ((middleware scopeDigest).log s.shared).count ⟨"POST", "/api/tx/submit",
          "550e8400-e29b-41d4-a716-446655440000", some "Alice"⟩ ≤ 1) ∧
    ∃ s, withFieldname.uploads.machine.Reach (withFieldname.uploads.Clear [evidence]) s ∧
      .replied evidence (kept 1) ∈ s.calls ∧
        withFieldname.Describes s.shared evidence (kept 1).response := by
  refine ⟨?_, ?_⟩
  · have hwallet : OneWallet [submitAs "Alice"] := by decide
    have hhash : Set.InjOn scopeDigest (scopes [submitAs "Alice"]) := by
      rintro _ ⟨req, hreq, rawKey, hraw, rfl⟩ _ ⟨req', hreq', rawKey', hraw', rfl⟩ -
      rw [List.mem_singleton.mp hreq] at hraw ⊢
      rw [List.mem_singleton.mp hreq'] at hraw' ⊢
      rw [Option.some.inj (hraw.symm.trans hraw')]
    obtain ⟨s, h, hcall⟩ : ∃ s, (middleware scopeDigest).machine.Reach
        ((middleware scopeDigest).Clear [submitAs "Alice"]) s ∧
          .replied (submitAs "Alice") (submitted "a") ∈ s.calls :=
      Machine.exists_reach_of_runAll
        [.start (submitAs "Alice"), .next 0 .ok, .next 0 (.result (submitted "a")), .next 0 .ok,
          .start (submitAs "Alice"), .next 1 .ok]
        (s := ⟨.fresh, []⟩) ⟨rfl, rfl⟩ (by decide)
    obtain ⟨honce, -⟩ :=
      (replayed_faithfully_of_reach scopeDigest withFieldname).1 _ s hwallet hhash h
    exact ⟨s, h, hcall, honce _ _ _ _⟩
  · have hfile : OneFile [evidence] := by decide
    have hhash : Set.InjOn withFieldname.sha256Hex
        {buffer | ∃ upload ∈ [evidence], buffer = upload.buffer} := by
      rintro _ ⟨upload, hupload, rfl⟩ _ ⟨upload', hupload', rfl⟩ -
      rw [List.mem_singleton.mp hupload, List.mem_singleton.mp hupload']
    obtain ⟨s, h, hcall⟩ : ∃ s, withFieldname.uploads.machine.Reach
        (withFieldname.uploads.Clear [evidence]) s ∧ .replied evidence (kept 1) ∈ s.calls :=
      Machine.exists_reach_of_runAll
        [.start evidence, .next 0 .ok, .next 0 (.result (some ("bafy", "t"))), .next 0 .ok,
          .start evidence, .next 1 .ok, .next 1 .ok]
        (s := ⟨.fresh, []⟩) ⟨rfl, rfl⟩ (by decide)
    obtain ⟨-, hdescribes⟩ :=
      (replayed_faithfully_of_reach scopeDigest withFieldname).2 _ s hfile hhash h
    exact ⟨s, h, hcall, hdescribes _ _ (.inl hcall)⟩

/-- Two requests of one wallet look before the answer to either is kept; and a request of another
wallet is answered as the first one was. -/
theorem handled_twice_and_for_another :
    (∃ s, (middleware id).machine.Reach Machine.always s ∧
      ((middleware id).log s.shared).count ⟨"POST", "/api/tx/submit",
        "550e8400-e29b-41d4-a716-446655440000", some "Alice"⟩ = 2) ∧
    ∃ s, (middleware id).machine.Reach Machine.always s ∧
      .replied (submitAs "Bob") (submitted "a") ∈ s.calls ∧
        ∀ run ∈ s.shared.runs, run.1.wallet ≠ some "Bob" := by
  refine ⟨?_, ?_⟩
  · exact Machine.exists_reach_of_runAll
      [.start (submitAs "Alice"), .start (submitAs "Alice"), .next 0 .ok, .next 1 .ok,
        .next 0 (.result (submitted "a")), .next 1 (.result (submitted "b"))]
      (s := ⟨.fresh, []⟩) ⟨rfl, rfl⟩ (by decide)
  · exact Machine.exists_reach_of_runAll
      [.start (submitAs "Alice"), .next 0 .ok, .next 0 (.result (submitted "a")), .next 0 .ok,
        .start (submitAs "Bob"), .next 1 .ok]
      (s := ⟨.fresh, []⟩) ⟨rfl, rfl⟩ (by decide)

end NiffyInsure.Backend.Idempotency
