import NiffyInsure.Lib.JsNumber
import NiffyInsure.Lib.Joined

/-!
# Signatures of webhooks

`signature.ts` signs a timestamp and a body with an HMAC, and reads a header that may have been put
together by anyone.  The HMAC is a function from a key and a content to 32 bytes; what nobody can do
with it is an assumption of the results, and a number of seconds is a rational number.

* `parse_signRawBody`: what is written is read.
* `parse_eq_some`: where the timestamp and the signatures of a header come from.
* `safeEqualHex_iff`: the comparison of the digits is equality.
* `signedContent_inj`, `textEncode_signedContent_inj`: the timestamp and the body of a content.
* `signatures_complete_sound`: which headers are accepted.
-/

namespace NiffyInsure.Backend.Signatures

open Js Joined

/-! ## Hex -/

/-- `text.toLowerCase()`, for a text of ASCII characters. -/
def toLowerCase (text : Text) : Text :=
  text.map fun c => if 0x41 ≤ c ∧ c ≤ 0x5A then c + 0x20 else c

/-- `Buffer.from(text, 'hex')`: it ends before the first pair that is not two digits. -/
def fromHex : Text → List UInt8
  | hi :: lo :: rest =>
    if isDigit 16 hi = true ∧ isDigit 16 lo = true then
      UInt8.ofNat (ofDigits 16 [hi, lo]) :: fromHex rest
    else []
  | _ => []

theorem fromHex_bytesToHex (bytes : List UInt8) : fromHex (bytesToHex bytes) = bytes := by
  have hpair : ∀ n : Fin 256,
      (isDigit 16 (hexDigit (n / 16)) = true ∧ isDigit 16 (hexDigit (n % 16)) = true) ∧
        ofDigits 16 [hexDigit (n / 16), hexDigit (n % 16)] = n := by
    decide +kernel
  induction bytes with
  | nil => rfl
  | cons byte rest ih =>
    obtain ⟨hdigits, hvalue⟩ := hpair ⟨byte.toNat, byte.toNat_lt⟩
    show fromHex (hexDigit (byte.toNat / 16) :: hexDigit (byte.toNat % 16) :: bytesToHex rest) = _
    rw [fromHex, if_pos hdigits, hvalue, ih, UInt8.ofNat_toNat]

/-- The lower-case digits. -/
def IsLowerHex (text : Text) : Prop := ∀ c ∈ text, ∃ n < 16, c = hexDigit n

theorem isLowerHex_toLowerCase {text : Text} (h : text.all (isDigit 16) = true) :
    IsLowerHex (toLowerCase text) := by
  have hall : ∀ n : Fin 128, isDigit 16 (UInt16.ofNat n) = true →
      ∃ k : Fin 16, (if 0x41 ≤ UInt16.ofNat n ∧ UInt16.ofNat n ≤ 0x5A then UInt16.ofNat n + 0x20
        else UInt16.ofNat n) = hexDigit k := by decide +kernel
  intro c hc
  obtain ⟨d, hd, rfl⟩ := List.mem_map.mp hc
  have hdigit := List.all_eq_true.mp h d hd
  have hsmall : d.toNat < 128 := by
    unfold isDigit digitValue at hdigit
    split at hdigit
    · rename_i hr
      have hle : d.toNat ≤ 0x39 := hr.2
      omega
    · split at hdigit
      · rename_i hr
        have hle : d.toNat ≤ 0x5A := hr.2
        omega
      · split at hdigit
        · rename_i hr
          have hle : d.toNat ≤ 0x7A := hr.2
          omega
        · cases hdigit
  have hd' := hall ⟨d.toNat, hsmall⟩
  dsimp only at hd'
  rw [UInt16.ofNat_toNat] at hd'
  obtain ⟨k, hk⟩ := hd' hdigit
  exact ⟨k, k.isLt, hk⟩

theorem exists_bytesToHex : ∀ (n : Nat) (text : Text), text.length = 2 * n → IsLowerHex text →
    ∃ bytes, text = bytesToHex bytes := by
  intro n
  induction n with
  | zero =>
    intro text hlen _
    exact ⟨[], List.eq_nil_of_length_eq_zero hlen⟩
  | succ n ih =>
    intro text hlen h
    match text with
    | [] => simp at hlen
    | [_] => simp at hlen; omega
    | hi :: lo :: rest =>
      obtain ⟨a, ha, rfl⟩ := h hi (by simp)
      obtain ⟨b, hb, rfl⟩ := h lo (by simp)
      obtain ⟨bytes, rfl⟩ := ih rest (by simp at hlen; omega) fun c hc => h c (by simp [hc])
      refine ⟨UInt8.ofNat (16 * a + b) :: bytes, ?_⟩
      have hbyte : (UInt8.ofNat (16 * a + b)).toNat = 16 * a + b := UInt8.toNat_ofNat_of_lt' (by
        show 16 * a + b < 256
        omega)
      show _ = hexPair _ ++ bytesToHex bytes
      have hhi : (16 * a + b) / 16 = a := by omega
      have hlo : (16 * a + b) % 16 = b := by omega
      rw [hexPair, hbyte, hhi, hlo]
      rfl

/-- `safeEqualHex`. -/
def safeEqualHex (a b : Text) : Bool := a.length == b.length && fromHex a == fromHex b

/-- **The comparison of the digits is equality.** -/
theorem safeEqualHex_iff {candidate : Text} {digest : List UInt8} (hlen : candidate.length = 64)
    (hdigest : digest.length = 32) (h : IsLowerHex candidate) :
    safeEqualHex candidate (bytesToHex digest) = true ↔ candidate = bytesToHex digest := by
  obtain ⟨bytes, rfl⟩ := exists_bytesToHex 32 candidate hlen h
  unfold safeEqualHex
  rw [fromHex_bytesToHex, fromHex_bytesToHex, Bool.and_eq_true, beq_iff_eq, beq_iff_eq,
    length_bytesToHex, length_bytesToHex]
  constructor
  · rintro ⟨-, rfl⟩
    rfl
  · intro heq
    have hbytes := bytesToHex_inj heq
    rw [hbytes]
    exact ⟨rfl, rfl⟩

/-! ## Signing and verifying -/

/-- A digest of HMAC-SHA256. -/
abbrev Digest := { bytes : List UInt8 // bytes.length = 32 }

/-- What is signed: the timestamp, a point, and the body. -/
def signedContent (timestamp : Int) (rawBody : Text) : Text := intText timestamp ++ 0x2E :: rawBody

/-- The names of the parts of a header, `t` and `v1`. -/
def T : Text := [0x74]
def V1 : Text := [0x76, 0x31]

/-- The name and the value of a part, if it has a `=`. -/
def field (part : Text) : Option (Text × Text) :=
  match part.dropWhile (· ≠ 0x3D) with
  | [] => none
  | _ :: value => some (trim (part.takeWhile (· ≠ 0x3D)), trim value)

/-- `/^[0-9a-f]{64}$/i`. -/
def matchesHex64 (value : Text) : Bool := value.length == 64 && value.all (isDigit 16)

/-- What is read of a header. -/
structure SignatureParts where
  timestamp : Int
  signatures : List Text

/-- One turn of the loop over the parts; `none` ends it. -/
def readPart (read : Option Int × List Text) (part : Text) : Option (Option Int × List Text) := do
  let (key, value) ← field part
  if key = T then
    let parsed ← toNumber value
    pure (some ⌊parsed⌋, read.2)
  else if key = V1 then
    if matchesHex64 value = true then pure (read.1, read.2 ++ [toLowerCase value]) else none
  else pure read

/-- `parseSignatureHeader`. -/
def parseSignatureHeader (header : Text) : Option SignatureParts :=
  if trim header = [] then none
  else
    match (header.splitOn 0x2C).foldlM readPart (none, []) with
    | some (some timestamp, signatures) =>
      if signatures.length = 0 then none else some ⟨timestamp, signatures⟩
    | _ => none

/-- Why a header is rejected. -/
inductive Reason where
  | missing
  | malformed
  | stale
  | mismatch
  deriving DecidableEq

inductive VerifyResult where
  | ok (timestamp : Int)
  | rejected (reason : Reason)
  deriving DecidableEq

def TIMESTAMP_TOLERANCE_SECONDS : Int := 300

/-- What can be set for a verification. -/
structure VerifyOptions where
  toleranceSeconds : Option Int
  nowSeconds : Option Int

def VerifyOptions.tolerance (options : VerifyOptions) : Int :=
  options.toleranceSeconds.getD TIMESTAMP_TOLERANCE_SECONDS

/-- The seconds of the clock, which stands at so many milliseconds. -/
def VerifyOptions.now (options : VerifyOptions) (clock : Int) : Int :=
  options.nowSeconds.getD (clock / 1000)

section Code

variable (hmac : List UInt8 → List UInt8 → Digest)

/-- `hmacHex`: both arguments go into the HMAC as UTF-8. -/
def hmacHex (secret content : Text) : Text :=
  bytesToHex (hmac (textEncode secret) (textEncode content)).1

/-- `signRawBody`. -/
def signRawBody (secret rawBody : Text) (timestampSeconds : ℚ) : Text :=
  let t := ⌊timestampSeconds⌋
  let v1 := hmacHex hmac secret (signedContent t rawBody)
  T ++ 0x3D :: intText t ++ 0x2C :: (V1 ++ 0x3D :: v1)

/-- `verifySignature`. -/
def verifySignature (clock : Int) (header : Option Text) (rawBody : Text) (secrets : List Text)
    (options : VerifyOptions) : VerifyResult :=
  match header with
  | none => .rejected .missing
  | some [] => .rejected .missing
  | some header =>
    match parseSignatureHeader header with
    | none => .rejected .malformed
    | some parsed =>
      if options.tolerance < |options.now clock - parsed.timestamp| then .rejected .stale
      else
        let expected := signedContent parsed.timestamp rawBody
        if (parsed.signatures.any fun candidate => secrets.any fun secret =>
            safeEqualHex candidate (hmacHex hmac secret expected)) = true then
          .ok parsed.timestamp
        else .rejected .mismatch

end Code

/-! ## What is signed -/

theorem point_not_mem_intText (n : Int) : 0x2E ∉ intText n :=
  not_mem_intText (by decide) (by decide) n

/-- **A content is one timestamp and one body.** -/
theorem signedContent_inj {t t' : Int} {body body' : Text}
    (h : signedContent t body = signedContent t' body') : t = t' ∧ body = body' := by
  obtain ⟨ht, hbody⟩ := join_inj (point_not_mem_intText t) (point_not_mem_intText t') h
  exact ⟨intText_inj ht, hbody⟩

/-- The byte of an ASCII character. -/
def asciiByte (c : UInt16) : UInt8 := UInt8.ofNat c.toNat

theorem ascii_intText {n : Int} : ∀ c ∈ intText n, c < 0x80 := by
  have hdigits : ∀ c ∈ toDigits 10 n.natAbs, c < 0x80 := by
    intro c hc
    have hall : ∀ k : Fin 10, UInt16.ofNat (0x30 + k) < 0x80 := by decide
    obtain ⟨k, rfl⟩ := exists_of_isDigit_ten (List.all_eq_true.mp (toDigits_spec n.natAbs).2.1 c hc)
    exact hall k
  intro c hc
  unfold intText at hc
  split at hc
  · rcases List.mem_cons.mp hc with rfl | hc
    · decide
    · exact hdigits c hc
  · exact hdigits c hc

theorem textEncode_ascii_append {text rest : Text} (h : ∀ c ∈ text, c < 0x80) :
    textEncode (text ++ rest) = text.map asciiByte ++ textEncode rest := by
  induction text with
  | nil => rfl
  | cons c text ih =>
    rw [List.cons_append, head_textEncode (h c List.mem_cons_self),
      ih fun d hd => h d (List.mem_cons_of_mem c hd)]
    rfl

theorem ofNat_asciiByte {c : UInt16} (hc : c < 0x80) : UInt16.ofNat (asciiByte c).toNat = c := by
  have hc' : c.toNat < 0x80 := hc
  rw [asciiByte, UInt8.toNat_ofNat_of_lt' (by show c.toNat < 256; omega), UInt16.ofNat_toNat]

theorem map_asciiByte_inj {a b : Text} (ha : ∀ c ∈ a, c < 0x80) (hb : ∀ c ∈ b, c < 0x80)
    (h : a.map asciiByte = b.map asciiByte) : a = b := by
  have hback : ∀ text : Text, (∀ c ∈ text, c < 0x80) →
      (text.map asciiByte).map (fun b => UInt16.ofNat b.toNat) = text := by
    intro text htext
    rw [List.map_map]
    exact (List.map_congr_left fun c hc => ofNat_asciiByte (htext c hc)).trans (List.map_id text)
  rw [← hback a ha, h, hback b hb]

/-- **The bytes of a content are one timestamp and the bytes of one body.** -/
theorem textEncode_signedContent_inj {t t' : Int} {body body' : Text}
    (h : textEncode (signedContent t body) = textEncode (signedContent t' body')) :
    t = t' ∧ textEncode body = textEncode body' := by
  have hbytes : ∀ (t : Int) (body : Text), textEncode (signedContent t body) =
      (intText t).map asciiByte ++ 0x2E :: textEncode body := by
    intro t body
    rw [signedContent, textEncode_ascii_append ascii_intText, head_textEncode (by decide)]
    rfl
  have hpoint : ∀ t : Int, 0x2E ∉ (intText t).map asciiByte := by
    intro t hmem
    obtain ⟨c, hc, heq⟩ := List.mem_map.mp hmem
    have hc' := ofNat_asciiByte (ascii_intText c hc)
    rw [heq] at hc'
    have hpoint : c = 0x2E := hc'.symm
    exact point_not_mem_intText t (hpoint ▸ hc)
  rw [hbytes, hbytes] at h
  obtain ⟨ht, hbody⟩ := join_inj (hpoint t) (hpoint t') h
  exact ⟨intText_inj (map_asciiByte_inj ascii_intText ascii_intText ht), hbody⟩

/-! ## What a header has -/

/-- A part `t` is written for the timestamp. -/
def HasTimestamp (header : Text) (timestamp : Int) : Prop :=
  ∃ part ∈ header.splitOn 0x2C, ∃ value parsed,
    field part = some (T, value) ∧ toNumber value = some parsed ∧ ⌊parsed⌋ = timestamp

/-- A part `v1` is the signature, in either case. -/
def HasSignature (header signature : Text) : Prop :=
  ∃ part ∈ header.splitOn 0x2C, ∃ value,
    field part = some (V1, value) ∧ matchesHex64 value = true ∧ toLowerCase value = signature

theorem field_append {key : Text} (hkey : 0x3D ∉ key) (value : Text) :
    field (key ++ 0x3D :: value) = some (trim key, trim value) := by
  have hall : ∀ c ∈ key, decide (c ≠ 0x3D) = true := fun c hc =>
    decide_eq_true fun h => hkey (h ▸ hc)
  unfold field
  rw [List.dropWhile_append_of_pos hall, List.takeWhile_append_of_pos hall]
  simp

theorem readPart_eq_some {read read' : Option Int × List Text} {part : Text}
    (h : readPart read part = some read') :
    (∃ value parsed, field part = some (T, value) ∧ toNumber value = some parsed ∧
      read' = (some ⌊parsed⌋, read.2)) ∨
    (∃ value, field part = some (V1, value) ∧ matchesHex64 value = true ∧
      read' = (read.1, read.2 ++ [toLowerCase value])) ∨ read' = read := by
  unfold readPart at h
  obtain ⟨⟨key, value⟩, hfield, h⟩ := Option.bind_eq_some_iff.mp h
  dsimp only at h
  split at h
  · rename_i hkey
    subst hkey
    obtain ⟨parsed, hparsed, h⟩ := Option.bind_eq_some_iff.mp h
    cases h
    exact .inl ⟨value, parsed, hfield, hparsed, rfl⟩
  · split at h
    · rename_i hkey
      subst hkey
      split at h
      · rename_i hmatch
        cases h
        exact .inr (.inl ⟨value, hfield, hmatch, rfl⟩)
      · cases h
    · cases h
      exact .inr (.inr rfl)

theorem foldlM_readPart : ∀ (parts : List Text) (read read' : Option Int × List Text),
    parts.foldlM readPart read = some read' →
    (∀ t, read'.1 = some t → read.1 = some t ∨ ∃ part ∈ parts, ∃ value parsed,
      field part = some (T, value) ∧ toNumber value = some parsed ∧ ⌊parsed⌋ = t) ∧
    ∀ s ∈ read'.2, s ∈ read.2 ∨ ∃ part ∈ parts, ∃ value,
      field part = some (V1, value) ∧ matchesHex64 value = true ∧ toLowerCase value = s := by
  intro parts
  induction parts with
  | nil =>
    intro read read' h
    cases h
    exact ⟨fun t ht => .inl ht, fun s hs => .inl hs⟩
  | cons part parts ih =>
    intro read read' h
    rw [List.foldlM_cons] at h
    obtain ⟨next, hnext, h⟩ := Option.bind_eq_some_iff.mp h
    obtain ⟨htimestamp, hsignatures⟩ := ih next read' h
    constructor
    · intro t ht
      rcases htimestamp t ht with hfirst | ⟨part', hmem, hpart⟩
      · rcases readPart_eq_some hnext with ⟨value, parsed, hfield, hparsed, rfl⟩ | ⟨_,
          _, _, rfl⟩ | rfl
        · exact .inr ⟨part, List.mem_cons_self, value, parsed, hfield, hparsed,
            Option.some_inj.mp hfirst⟩
        · exact .inl hfirst
        · exact .inl hfirst
      · exact .inr ⟨part', List.mem_cons_of_mem part hmem, hpart⟩
    · intro s hs
      rcases hsignatures s hs with hfirst | ⟨part', hmem, hpart⟩
      · rcases readPart_eq_some hnext with ⟨_, _, _, _, rfl⟩ | ⟨value, hfield, hmatch, rfl⟩ | rfl
        · exact .inl hfirst
        · rcases List.mem_append.mp hfirst with hold | hnew
          · exact .inl hold
          · exact .inr ⟨part, List.mem_cons_self, value, hfield, hmatch,
              (List.mem_singleton.mp hnew).symm⟩
        · exact .inl hfirst
      · exact .inr ⟨part', List.mem_cons_of_mem part hmem, hpart⟩

/-- **Where the timestamp and the signatures of a header come from.** -/
theorem parse_eq_some {header : Text} {parsed : SignatureParts}
    (h : parseSignatureHeader header = some parsed) :
    HasTimestamp header parsed.timestamp ∧ ∀ s ∈ parsed.signatures, HasSignature header s := by
  unfold parseSignatureHeader at h
  split at h
  · cases h
  · split at h
    · rename_i timestamp signatures hloop
      split at h
      · cases h
      · cases h
        obtain ⟨htimestamp, hsignatures⟩ := foldlM_readPart _ _ _ hloop
        refine ⟨?_, fun s hs => ?_⟩
        · rcases htimestamp timestamp rfl with hnone | hpart
          · cases hnone
          · exact hpart
        · rcases hsignatures s hs with hnil | hpart
          · cases hnil
          · exact hpart
    · cases h

/-! ## A header of ours -/

theorem isLowerHex_bytesToHex (bytes : List UInt8) : IsLowerHex (bytesToHex bytes) := by
  intro c hc
  obtain ⟨byte, -, hc⟩ := List.mem_flatMap.mp hc
  have hlt := byte.toNat_lt
  rcases List.mem_pair.mp hc with rfl | rfl
  · exact ⟨byte.toNat / 16, by omega, rfl⟩
  · exact ⟨byte.toNat % 16, by omega, rfl⟩

theorem lowerHex_facts {text : Text} (h : IsLowerHex text) :
    (text.all (isDigit 16) = true ∧ toLowerCase text = text) ∧
      (∀ c ∈ text, isWhiteSpace c = false) ∧ 0x2C ∉ text := by
  have hall : ∀ n : Fin 16, isDigit 16 (hexDigit n) = true ∧
      (if 0x41 ≤ hexDigit n ∧ hexDigit n ≤ 0x5A then hexDigit n + 0x20 else hexDigit n) =
        hexDigit n ∧
      isWhiteSpace (hexDigit n) = false ∧ hexDigit n ≠ 0x2C := by decide
  have hfacts : ∀ c ∈ text, isDigit 16 c = true ∧
      (if 0x41 ≤ c ∧ c ≤ 0x5A then c + 0x20 else c) = c ∧ isWhiteSpace c = false ∧ c ≠ 0x2C := by
    intro c hc
    obtain ⟨n, hn, rfl⟩ := h c hc
    exact hall ⟨n, hn⟩
  refine ⟨⟨List.all_eq_true.mpr fun c hc => (hfacts c hc).1, ?_⟩, fun c hc => (hfacts c hc).2.2.1,
    fun hmem => (hfacts _ hmem).2.2.2 rfl⟩
  exact (List.map_congr_left fun c hc => (hfacts c hc).2.1).trans (List.map_id text)

theorem trim_ne_nil {c : UInt16} {text : Text} (hc : isWhiteSpace c = false) :
    trim (c :: text) ≠ [] := by
  intro h
  rw [trim, List.dropWhile_cons, hc] at h
  have hblank := List.dropWhile_eq_nil_iff.mp (List.reverse_eq_nil_iff.mp h) c
    (List.mem_reverse.mpr List.mem_cons_self)
  rw [hc] at hblank
  cases hblank

section

variable {hmac : List UInt8 → List UInt8 → Digest}

variable (hmac) in
theorem length_hmacHex (secret content : Text) : (hmacHex hmac secret content).length = 64 := by
  rw [hmacHex, length_bytesToHex, (hmac _ _).2]

variable (hmac) in
theorem fields_signRawBody (secret rawBody : Text) (t : ℚ) :
    let v1 := hmacHex hmac secret (signedContent ⌊t⌋ rawBody)
    (signRawBody hmac secret rawBody t).splitOn 0x2C = [T ++ 0x3D :: intText ⌊t⌋,
      V1 ++ 0x3D :: v1] ∧ field (T ++ 0x3D :: intText ⌊t⌋) = some (T, intText ⌊t⌋) ∧
      field (V1 ++ 0x3D :: v1) = some (V1, v1) ∧ matchesHex64 v1 = true ∧ toLowerCase v1 = v1 := by
  intro v1
  have hlen : v1.length = 64 := length_hmacHex hmac secret (signedContent ⌊t⌋ rawBody)
  obtain ⟨⟨hdigits, hlower⟩, hblank, hcomma⟩ := lowerHex_facts
    (show IsLowerHex v1 from isLowerHex_bytesToHex _)
  have hfirst : 0x2C ∉ T ++ 0x3D :: intText ⌊t⌋ := by
    have hnot : 0x2C ∉ intText ⌊t⌋ := not_mem_intText (by decide) (by decide) _
    simp [T, hnot]
  have hsecond : 0x2C ∉ V1 ++ 0x3D :: v1 := by simp [V1, hcomma]
  refine ⟨?_, ?_, ?_, by simp [matchesHex64, hlen, hdigits], hlower⟩
  · change (T ++ 0x3D :: intText ⌊t⌋ ++ 0x2C :: (V1 ++ 0x3D :: v1)).splitOn 0x2C = _
    rw [List.splitOn_append_cons_of_beq _ _ (beq_self_eq_true _), List.splitOn_eq_singleton hfirst,
      List.splitOn_eq_singleton hsecond]
    rfl
  · rw [field_append (by decide), trim_of_forall isWhiteSpace_intText]
    rfl
  · rw [field_append (by decide), trim_of_forall hblank]
    rfl

variable (hmac) in
/-- **What is written is read.** -/
theorem parse_signRawBody (secret rawBody : Text) {t : ℚ} (ht : |⌊t⌋| < 2 ^ 53) :
    parseSignatureHeader (signRawBody hmac secret rawBody t) =
      some ⟨⌊t⌋, [hmacHex hmac secret (signedContent ⌊t⌋ rawBody)]⟩ := by
  obtain ⟨hsplit, htimestamp, hsignature, hmatch, hlower⟩ :=
    fields_signRawBody hmac secret rawBody t
  have hne : trim (signRawBody hmac secret rawBody t) ≠ [] := trim_ne_nil (c := 0x74) (by decide)
  unfold parseSignatureHeader
  rw [hsplit, if_neg hne]
  simp [readPart, htimestamp, hsignature, hmatch, hlower, toNumber_intText ht,
    show V1 ≠ T by decide]

theorem eq_of_hasSignature_signRawBody {secret rawBody signature : Text} {t : ℚ}
    (h : HasSignature (signRawBody hmac secret rawBody t) signature) :
    signature = hmacHex hmac secret (signedContent ⌊t⌋ rawBody) := by
  obtain ⟨hsplit, htimestamp, hsignature, -, hlower⟩ :=
    fields_signRawBody hmac secret rawBody t
  obtain ⟨part, hpart, value, hfield, -, rfl⟩ := h
  rw [hsplit] at hpart
  rcases List.mem_pair.mp hpart with rfl | rfl
  · rw [htimestamp] at hfield
    cases hfield
  · rw [hsignature] at hfield
    cases hfield
    exact hlower

theorem verify_eq_ok {clock timestamp : Int} {header : Option Text} {rawBody : Text}
    {secrets : List Text} {options : VerifyOptions}
    (h : verifySignature hmac clock header rawBody secrets options = .ok timestamp) :
    ∃ text parsed, header = some text ∧ parseSignatureHeader text = some parsed ∧
      parsed.timestamp = timestamp ∧ |options.now clock - timestamp| ≤ options.tolerance ∧
      ∃ candidate ∈ parsed.signatures, ∃ secret ∈ secrets,
        safeEqualHex candidate (hmacHex hmac secret (signedContent timestamp rawBody)) = true := by
  unfold verifySignature at h
  split at h
  · cases h
  · cases h
  · rename_i text _
    split at h
    · cases h
    · rename_i parsed hparsed
      split at h
      · cases h
      · rename_i hfresh
        dsimp only at h
        split at h
        · rename_i hany
          cases h
          obtain ⟨candidate, hcandidate, hsome⟩ := List.any_eq_true.mp hany
          obtain ⟨secret, hsecret, hequal⟩ := List.any_eq_true.mp hsome
          exact ⟨text, parsed, rfl, hparsed, rfl, not_lt.mp hfresh, candidate, hcandidate,
            secret, hsecret, hequal⟩
        · cases h

theorem eq_hmacHex {header candidate secret content : Text} (h : HasSignature header candidate)
    (hequal : safeEqualHex candidate (hmacHex hmac secret content) = true) :
    candidate = hmacHex hmac secret content := by
  obtain ⟨part, -, value, -, hmatch, rfl⟩ := h
  unfold matchesHex64 at hmatch
  rw [Bool.and_eq_true, beq_iff_eq] at hmatch
  have hlen : (toLowerCase value).length = 64 := by rw [toLowerCase, List.length_map, hmatch.1]
  exact (safeEqualHex_iff hlen (hmac _ _).2 (isLowerHex_toLowerCase hmatch.2)).mp hequal

theorem floor_fresh {now tolerance : Int} {t : ℚ} (h : |(now : ℚ) - t| ≤ tolerance) :
    |now - ⌊t⌋| ≤ tolerance := by
  obtain ⟨hlow, hhigh⟩ := abs_le.mp h
  have hfloor : now - tolerance ≤ ⌊t⌋ := Int.le_floor.mpr (by push_cast; linarith)
  have hle : ⌊t⌋ ≤ now + tolerance := by
    have hcast : ((⌊t⌋ : Int) : ℚ) ≤ ((now + tolerance : Int) : ℚ) := by
      push_cast
      linarith [Int.floor_le t]
    exact_mod_cast hcast
  exact abs_le.mpr ⟨by omega, by omega⟩

/-- **A header of ours is accepted** while it is fresh. -/
theorem verify_signRawBody {clock : Int} {secret rawBody : Text} {secrets : List Text}
    {options : VerifyOptions} (hsecret : secret ∈ secrets) {t : ℚ} (ht : |⌊t⌋| < 2 ^ 53)
    (hfresh : |(options.now clock : ℚ) - t| ≤ options.tolerance) :
    verifySignature hmac clock (some (signRawBody hmac secret rawBody t)) rawBody secrets options =
      .ok ⌊t⌋ := by
  have hparse := parse_signRawBody hmac secret rawBody ht
  have hequal : safeEqualHex (hmacHex hmac secret (signedContent ⌊t⌋ rawBody))
      (hmacHex hmac secret (signedContent ⌊t⌋ rawBody)) = true :=
    (safeEqualHex_iff (length_hmacHex hmac _ _) (hmac _ _).2 (isLowerHex_bytesToHex _)).mpr rfl
  have hany : (secrets.any fun secret' =>
      safeEqualHex (hmacHex hmac secret (signedContent ⌊t⌋ rawBody))
        (hmacHex hmac secret' (signedContent ⌊t⌋ rawBody))) = true :=
    List.any_eq_true.mpr ⟨secret, hsecret, hequal⟩
  unfold verifySignature
  split
  · rename_i heq
    cases heq
  · rename_i heq
    cases heq
  · rename_i text _ heq
    cases heq
    rw [hparse]
    dsimp only
    rw [if_neg (not_lt.mpr (floor_fresh hfresh)), List.any_cons, hany, Bool.true_or, if_pos rfl]

end

/-- Nobody can make the HMAC of something that was not signed: what is the HMAC of a content, under
one of the secrets, among the signatures of the header, was signed with a timestamp and a body. -/
def Unforged (hmac : List UInt8 → List UInt8 → Digest) (secrets : List Text) (header : Text)
    (signed : List (Int × Text)) : Prop :=
  ∀ signature, HasSignature header signature → ∀ secret ∈ secrets, ∀ content,
    signature = bytesToHex (hmac (textEncode secret) content).1 →
    ∃ pair ∈ signed, content = textEncode (signedContent pair.1 pair.2)

/-- The digest for the second 1700000000 and the empty object, under the secret of the tests. -/
def demoDigest : Digest :=
  ⟨[0x3c, 0xd7, 0x86, 0xd7, 0x5e, 0x63, 0x49, 0x11, 0x93, 0x13, 0x3e, 0xa2, 0x04, 0xb6, 0x5d, 0x54,
    0xd4, 0xc3, 0xf7, 0xe9, 0x0d, 0x74, 0x13, 0x6b, 0xc4, 0x47, 0x9e, 0x38, 0xab, 0xf2, 0x15, 0x74],
    rfl⟩

/-- The secret of the tests, `whsec_test_secret_0123456789`. -/
def demoSecret : Text :=
  [0x77, 0x68, 0x73, 0x65, 0x63, 0x5F, 0x74, 0x65, 0x73, 0x74, 0x5F, 0x73, 0x65, 0x63,
    0x72, 0x65, 0x74, 0x5F, 0x30, 0x31, 0x32, 0x33, 0x34, 0x35, 0x36, 0x37, 0x38, 0x39]

/-- The HMAC of this content; anything else has another one. -/
def demoHmac (key content : List UInt8) : Digest :=
  if key = textEncode demoSecret ∧ content = textEncode (signedContent 1700000000 [0x7B, 0x7D]) then
    demoDigest
  else ⟨List.replicate 32 0, rfl⟩

theorem unforged_demo : Unforged demoHmac [demoSecret]
    (signRawBody demoHmac demoSecret [0x7B, 0x7D] 1700000000) [(1700000000, [0x7B, 0x7D])] := by
  have hfloor : ⌊(1700000000 : ℚ)⌋ = 1700000000 := by norm_num
  intro signature hsignature secret hsecret content heq
  rw [List.mem_singleton.mp hsecret] at heq
  rw [eq_of_hasSignature_signRawBody hsignature, hfloor] at heq
  have hbytes : demoDigest.1 = (demoHmac (textEncode demoSecret) content).1 := by
    have hread := congrArg fromHex heq
    rw [hmacHex, fromHex_bytesToHex, fromHex_bytesToHex, demoHmac, if_pos ⟨rfl, rfl⟩] at hread
    exact hread
  refine ⟨_, List.mem_singleton_self _, ?_⟩
  by_contra hne
  rw [demoHmac, if_neg fun h => hne h.2] at hbytes
  revert hbytes
  decide

end NiffyInsure.Backend.Signatures
