import Mathlib.Data.List.DropRight

/-!
# Strings of UTF-16 code units

A JavaScript string is a sequence of UTF-16 code units, in which surrogates need not be paired.
Here are the parts of its library that turn a string into a number or into bytes, and a byte string
into its hex digits, and the search from the end.  `none` stands for `NaN`, or for an exception.

* `hexBytes_bytesToHex`: what is written by `bytesToHex` is read back by `hexBytes`.
* `bytesToHex_inj`: different byte strings have different hex digits.
* `head_textEncode`: an ASCII character at the front is the first byte of the encoding.
-/

namespace Js

/-- A string: its UTF-16 code units. -/
abbrev Text := List UInt16

/-! ## Numbers -/

/-- `StrWhiteSpaceChar`: the white space and the line terminators. -/
def isWhiteSpace (c : UInt16) : Bool :=
  [0x9, 0xA, 0xB, 0xC, 0xD, 0x20, 0xA0, 0x1680, 0x2028, 0x2029, 0x202F, 0x205F, 0x3000,
    0xFEFF].contains c || (0x2000 ≤ c && c ≤ 0x200A)

/-- `text.trim()`. -/
def trim (text : Text) : Text :=
  ((text.dropWhile isWhiteSpace).reverse.dropWhile isWhiteSpace).reverse

/-- The same for a string of characters: all white space is in the basic plane. -/
def trimString (text : String) : String :=
  let blank (c : Char) : Bool := c.toNat < 0x10000 && isWhiteSpace (UInt16.ofNat c.toNat)
  String.ofList ((text.toList.dropWhile blank).reverse.dropWhile blank).reverse

/-- The value of a digit in the bases up to 36. -/
def digitValue (c : UInt16) : Option Nat :=
  if 0x30 ≤ c ∧ c ≤ 0x39 then some (c.toNat - 0x30)
  else if 0x41 ≤ c ∧ c ≤ 0x5A then some (c.toNat - 0x37)
  else if 0x61 ≤ c ∧ c ≤ 0x7A then some (c.toNat - 0x57)
  else none

def isDigit (radix : Nat) (c : UInt16) : Bool := (digitValue c).any (· < radix)

/-- The number that digits are written for. -/
def ofDigits (radix : Nat) (digits : Text) : Nat :=
  digits.foldl (fun n c => n * radix + (digitValue c).getD 0) 0

/-- The sign in front of a number, and the rest. -/
def takeSign (text : Text) : Int × Text :=
  match text with
  | [] => (1, [])
  | c :: rest => if c = 0x2B then (1, rest) else if c = 0x2D then (-1, rest) else (1, c :: rest)

/-- The base that `0x`, `0o` or `0b`, in either case, announces, and the rest. -/
def takeBase (text : Text) : Option (Nat × Text) :=
  match text with
  | z :: c :: rest =>
    if z ≠ 0x30 then none
    else if c = 0x78 ∨ c = 0x58 then some (16, rest)
    else if c = 0x6F ∨ c = 0x4F then some (8, rest)
    else if c = 0x62 ∨ c = 0x42 then some (2, rest)
    else none
  | _ => none

/-- `parseInt(text, 16)`, for a text with so few digits that its value is exact. -/
def parseInt16 (text : Text) : Option Int :=
  let (sign, body) := takeSign (text.dropWhile isWhiteSpace)
  let body := match takeBase body with
    | some (16, rest) => rest
    | _ => body
  let digits := body.takeWhile (isDigit 16)
  if digits = [] then none else some (sign * ofDigits 16 digits)

/-- `parseInt(text, 10)`, likewise, for a string of characters. -/
def parseInt10 (text : String) : Option Int :=
  let (sign, body) := takeSign ((trimString text).toList.map fun c =>
    UInt16.ofNat (min c.toNat 0xFFFF))
  let digits := body.takeWhile (isDigit 10)
  if digits = [] then none else some (sign * ofDigits 10 digits)

/-- The number that a text of nothing but digits, and at least one, is written for. -/
def ofLiteral (radix : Nat) (digits : Text) : Option Nat :=
  if digits ≠ [] ∧ digits.all (isDigit radix) = true then some (ofDigits radix digits) else none

/-- `BigInt(text)`. -/
def bigInt (text : Text) : Option Int :=
  let body := (text.dropWhile isWhiteSpace).rdropWhile isWhiteSpace
  if body = [] then some 0
  else match takeBase body with
    | some (radix, rest) => (ofLiteral radix rest).map Int.ofNat
    | none => let (sign, digits) := takeSign body; (ofLiteral 10 digits).map (sign * ·)

theorem ofLiteral_eq_some_iff {radix n : Nat} {digits : Text} :
    ofLiteral radix digits = some n ↔
      digits ≠ [] ∧ digits.all (isDigit radix) = true ∧ ofDigits radix digits = n := by
  unfold ofLiteral
  split
  · rename_i h
    exact ⟨fun hn => ⟨h.1, h.2, Option.some_inj.mp hn⟩, fun hn => congrArg some hn.2.2⟩
  · rename_i h
    exact iff_of_false nofun fun hn => h ⟨hn.1, hn.2.1⟩

/-- What an element of a `Uint8Array` becomes when a number is assigned to it. -/
def toUint8 (n : Option Int) : UInt8 := UInt8.ofInt (n.getD 0)

/-! ## Searching -/

/-- `text.lastIndexOf(c)`, with `none` for `-1`. -/
def lastIndexOf (c : UInt16) : Text → Option Nat
  | [] => none
  | d :: rest =>
    match lastIndexOf c rest with
    | some i => some (i + 1)
    | none => if d = c then some 0 else none

theorem lastIndexOf_of_not_mem {c : UInt16} {text : Text} (h : c ∉ text) :
    lastIndexOf c text = none := by
  induction text with
  | nil => rfl
  | cons d rest ih =>
    rw [List.mem_cons, not_or] at h
    rw [lastIndexOf, ih h.2]
    exact if_neg (Ne.symm h.1)

/-- The last one is where none comes after it. -/
theorem lastIndexOf_append {c : UInt16} (body : Text) {tag : Text} (h : c ∉ tag) :
    lastIndexOf c (body ++ c :: tag) = some body.length := by
  induction body with
  | nil =>
    show lastIndexOf c (c :: tag) = some 0
    rw [lastIndexOf, lastIndexOf_of_not_mem h]
    exact if_pos rfl
  | cons d rest ih =>
    rw [List.cons_append, lastIndexOf, ih]
    rfl

/-! ## Hex digits -/

/-- The lower-case digit of a number below 16. -/
def hexDigit (n : Nat) : UInt16 := UInt16.ofNat (if n < 10 then 0x30 + n else 0x57 + n)

/-- `byte.toString(16).padStart(2, "0")`. -/
def hexPair (byte : UInt8) : Text := [hexDigit (byte.toNat / 16), hexDigit (byte.toNat % 16)]

def bytesToHex (bytes : List UInt8) : Text := bytes.flatMap hexPair

/-- Reads the digits two by two, each pair with `parseInt`. -/
def hexBytes : Text → List UInt8
  | hi :: lo :: rest => toUint8 (parseInt16 [hi, lo]) :: hexBytes rest
  | _ => []

/-- `text.startsWith("0x") ? text.slice(2) : text`. -/
def strip0x (text : Text) : Text :=
  match text with
  | z :: x :: rest => if z = 0x30 ∧ x = 0x78 then rest else text
  | _ => text

theorem parseInt16_hexPair (byte : UInt8) : toUint8 (parseInt16 (hexPair byte)) = byte := by
  -- a check of the 256 bytes
  have h : ∀ n : Fin 256, toUint8 (parseInt16 (hexPair (UInt8.ofNat n))) = UInt8.ofNat n := by
    decide +kernel
  simpa using h ⟨byte.toNat, byte.toNat_lt⟩

theorem hexBytes_bytesToHex (bytes : List UInt8) : hexBytes (bytesToHex bytes) = bytes := by
  induction bytes with
  | nil => rfl
  | cons byte rest ih =>
    show toUint8 (parseInt16 (hexPair byte)) :: hexBytes (bytesToHex rest) = byte :: rest
    rw [parseInt16_hexPair, ih]

theorem bytesToHex_inj {a b : List UInt8} (h : bytesToHex a = bytesToHex b) : a = b := by
  rw [← hexBytes_bytesToHex a, h, hexBytes_bytesToHex]

theorem length_bytesToHex (bytes : List UInt8) : (bytesToHex bytes).length = 2 * bytes.length := by
  induction bytes with
  | nil => rfl
  | cons byte rest ih =>
    show (bytesToHex rest).length + 2 = 2 * (rest.length + 1)
    omega

/-- The digits of a byte string do not look like a marked one: `x` is not a digit. -/
theorem strip0x_bytesToHex (bytes : List UInt8) :
    strip0x (bytesToHex bytes) = bytesToHex bytes := by
  cases bytes with
  | nil => rfl
  | cons byte rest =>
    have h : ∀ n : Fin 16, hexDigit n ≠ 0x78 := by decide
    show (if _ ∧ hexDigit (byte.toNat % 16) = 0x78 then _ else _) = _
    rw [if_neg]
    exact fun hx => h ⟨byte.toNat % 16, Nat.mod_lt _ (by decide)⟩ hx.2

/-! ## Bytes -/

/-- The code points of a string.  A surrogate without its partner reads as U+FFFD. -/
def codePoints : Text → List Nat
  | [] => []
  | [c] => if 0xD800 ≤ c ∧ c ≤ 0xDFFF then [0xFFFD] else [c.toNat]
  | c :: d :: rest =>
    if 0xD800 ≤ c ∧ c ≤ 0xDBFF then
      if 0xDC00 ≤ d ∧ d ≤ 0xDFFF then
        (0x10000 + (c.toNat - 0xD800) * 0x400 + (d.toNat - 0xDC00)) :: codePoints rest
      else 0xFFFD :: codePoints (d :: rest)
    else if 0xDC00 ≤ c ∧ c ≤ 0xDFFF then 0xFFFD :: codePoints (d :: rest)
    else c.toNat :: codePoints (d :: rest)

/-- The UTF-8 of a code point. -/
def utf8 (p : Nat) : List UInt8 :=
  if p < 0x80 then [UInt8.ofNat p]
  else if p < 0x800 then [UInt8.ofNat (0xC0 + p / 0x40), UInt8.ofNat (0x80 + p % 0x40)]
  else if p < 0x10000 then
    [UInt8.ofNat (0xE0 + p / 0x1000), UInt8.ofNat (0x80 + p / 0x40 % 0x40),
      UInt8.ofNat (0x80 + p % 0x40)]
  else
    [UInt8.ofNat (0xF0 + p / 0x40000), UInt8.ofNat (0x80 + p / 0x1000 % 0x40),
      UInt8.ofNat (0x80 + p / 0x40 % 0x40), UInt8.ofNat (0x80 + p % 0x40)]

/-- `new TextEncoder().encode(text)`. -/
def textEncode (text : Text) : List UInt8 := (codePoints text).flatMap utf8

/-- The digits of six bits each; the last ones are filled up with zeros. -/
def sextets : List Nat → List Nat
  | a :: b :: c :: rest =>
    a / 4 :: (a % 4 * 16 + b / 16) :: (b % 16 * 4 + c / 64) :: c % 64 :: sextets rest
  | [a, b] => [a / 4, a % 4 * 16 + b / 16, b % 16 * 4]
  | [a] => [a / 4, a % 4 * 16]
  | [] => []

def base64urlDigits : List Char :=
  "ABCDEFGHIJKLMNOPQRSTUVWXYZabcdefghijklmnopqrstuvwxyz0123456789-_".toList

/-- `Buffer.from(text).toString('base64url')`, for a string of characters. -/
def base64url (text : String) : String :=
  let bytes := (text.toList.flatMap fun c => utf8 c.toNat).map UInt8.toNat
  String.ofList ((sextets bytes).map fun n => base64urlDigits.getD n 'A')

example : base64url "http://a?ü" = "aHR0cDovL2E_w7w" := by decide

/-- Four digits for every three bytes. -/
theorem sextets_take (bytes : List Nat) (n : Nat) :
    sextets (bytes.take (3 * n)) = (sextets bytes).take (4 * n) := by
  induction n generalizing bytes with
  | zero => simp [sextets]
  | succ n ih =>
    rw [Nat.mul_succ, Nat.mul_succ]
    match bytes with
    | [] => rfl
    | [a] => rfl
    | [a, b] => rfl
    | a :: b :: c :: rest =>
      simp only [List.take_succ_cons, sextets]
      rw [ih]

theorem sextets_lt {bytes : List Nat} (h : ∀ b ∈ bytes, b < 256) : ∀ n ∈ sextets bytes, n < 64 := by
  induction bytes using sextets.induct with
  | case1 a b c rest ih =>
    have ha := h a (by simp)
    have hb := h b (by simp)
    have hc := h c (by simp)
    have hrest := ih fun x hx => h x (by simp [hx])
    simp only [sextets, List.forall_mem_cons]
    exact ⟨by omega, by omega, by omega, by omega, hrest⟩
  | case2 a b =>
    have ha := h a (by simp)
    have hb := h b (by simp)
    simp only [sextets, List.forall_mem_cons]
    exact ⟨by omega, by omega, by omega, by simp⟩
  | case3 a =>
    have ha := h a (by simp)
    simp only [sextets, List.forall_mem_cons]
    exact ⟨by omega, by omega, by simp⟩
  | case4 => simp [sextets]

theorem sextets_inj {a b : List Nat} (ha : ∀ x ∈ a, x < 256) (hb : ∀ x ∈ b, x < 256)
    (h : sextets a = sextets b) : a = b := by
  induction a using sextets.induct generalizing b with
  | case1 x y z rest ih =>
    match b with
    | x' :: y' :: z' :: rest' =>
      simp only [sextets, List.cons.injEq] at h
      simp only [List.forall_mem_cons] at ha hb
      have hrest := ih ha.2.2.2 hb.2.2.2 h.2.2.2.2
      have hx : x = x' := by omega
      have hy : y = y' := by omega
      have hz : z = z' := by omega
      rw [hx, hy, hz, hrest]
    | [x', y'] => simp [sextets] at h
    | [x'] => simp [sextets] at h
    | [] => simp [sextets] at h
  | case2 x y =>
    match b with
    | x' :: y' :: z' :: rest' => simp [sextets] at h
    | [x', y'] =>
      simp only [sextets, List.cons.injEq] at h
      simp only [List.forall_mem_cons] at ha hb
      have hx : x = x' := by omega
      have hy : y = y' := by omega
      rw [hx, hy]
    | [x'] => simp [sextets] at h
    | [] => simp [sextets] at h
  | case3 x =>
    match b with
    | x' :: y' :: z' :: rest' => simp [sextets] at h
    | [x', y'] => simp [sextets] at h
    | [x'] =>
      simp only [sextets, List.cons.injEq] at h
      have hx : x = x' := by omega
      rw [hx]
    | [] => simp [sextets] at h
  | case4 =>
    match b with
    | x' :: y' :: z' :: rest' => simp [sextets] at h
    | [x', y'] => simp [sextets] at h
    | [x'] => simp [sextets] at h
    | [] => rfl

theorem idxOf_base64urlDigits {n : Nat} (hn : n < 64) :
    base64urlDigits.idxOf (base64urlDigits.getD n 'A') = n := by
  -- a check of the 64 digits
  have h : ∀ n : Fin 64, base64urlDigits.idxOf (base64urlDigits.getD n 'A') = n := by
    decide +kernel
  exact h ⟨n, hn⟩

/-- The bytes of a string of characters. -/
def bytesOf (text : String) : List UInt8 := text.toList.flatMap fun c => utf8 c.toNat

/-- The digits that are written for bytes, read back. -/
theorem map_idxOf_map_digit {digits : List Nat} (h : ∀ n ∈ digits, n < 64) :
    (digits.map fun n => base64urlDigits.getD n 'A').map base64urlDigits.idxOf = digits := by
  rw [List.map_map]
  exact (List.map_congr_left fun n hn => idxOf_base64urlDigits (h n hn)).trans (List.map_id _)

/-- **The first digits tell the first bytes.** -/
theorem take_base64url_iff (s t : String) (n : Nat) :
    (base64url s).toList.take (4 * n) = (base64url t).toList.take (4 * n) ↔
      (bytesOf s).take (3 * n) = (bytesOf t).take (3 * n) := by
  have hlt (u : String) : ∀ b ∈ ((bytesOf u).take (3 * n)).map UInt8.toNat, b < 256 := by
    intro b hb
    obtain ⟨byte, -, rfl⟩ := List.mem_map.mp hb
    exact byte.toNat_lt
  have hdigits (u : String) : (base64url u).toList.take (4 * n) =
      (sextets (((bytesOf u).take (3 * n)).map UInt8.toNat)).map fun m =>
        base64urlDigits.getD m 'A' := by
    rw [base64url, String.toList_ofList, ← List.map_take, ← sextets_take, ← List.map_take, bytesOf]
  rw [hdigits, hdigits]
  constructor
  · intro h
    have hread := congrArg (List.map base64urlDigits.idxOf) h
    rw [map_idxOf_map_digit (sextets_lt (hlt s)), map_idxOf_map_digit (sextets_lt (hlt t))] at hread
    have hbytes := sextets_inj (hlt s) (hlt t) hread
    exact List.map_injective_iff.mpr (fun _ _ => UInt8.toNat_inj.mp) hbytes
  · intro h
    rw [h]

theorem head_codePoints {c : UInt16} {rest : Text} (hc : c < 0xD800) :
    codePoints (c :: rest) = c.toNat :: codePoints rest := by
  have hlo : ¬ 0xD800 ≤ c := UInt16.not_le.mpr hc
  have hhi : ¬ 0xDC00 ≤ c := fun h => hlo (UInt16.le_trans (by decide) h)
  cases rest with
  | nil => simp [codePoints, hlo]
  | cons d rest => simp [codePoints, hlo, hhi]

theorem head_textEncode {c : UInt16} {rest : Text} (hc : c < 0x80) :
    textEncode (c :: rest) = UInt8.ofNat c.toNat :: textEncode rest := by
  have hpoint : c.toNat < 0x80 := hc
  rw [textEncode, head_codePoints (UInt16.lt_trans hc (by decide)), List.flatMap_cons, utf8,
    if_pos hpoint]
  rfl

end Js
