import NiffyInsure.Lib.JsParts
import Mathlib.Algebra.Order.Archimedean.Basic
import Mathlib.Algebra.Order.Field.Basic
import Mathlib.Data.Int.Log
import Mathlib.Data.Rat.Floor

/-!
# Numbers as texts

`Number(text)` reads a number in any of the ways in which one can be written, and rounds it to a
double.  Numbers are rational here, and `none` stands for `NaN` and for the infinities.

* `intText_inj`: different integers are written differently.
* `toDouble_intCast`: an integer below `2 ^ 53` is a double.
* `toNumber_intText`: such an integer is read back from its text.
-/

namespace Js

/-! ## Integers -/

/-- `String(n)`, for a number with so few digits that all of them are written. -/
def intText (n : Int) : Text :=
  if n < 0 then 0x2D :: toDigits 10 n.natAbs else toDigits 10 n.natAbs

theorem toDigits_spec (n : Nat) :
    toDigits 10 n ≠ [] ∧ (toDigits 10 n).all (isDigit 10) = true ∧
      ofDigits 10 (toDigits 10 n) = n :=
  ofLiteral_eq_some_iff.mp (ofLiteral_toDigits 10 (by decide) (by decide) n)

theorem toDigits_inj {m n : Nat} (h : toDigits 10 m = toDigits 10 n) : m = n := by
  rw [← (toDigits_spec m).2.2, h, (toDigits_spec n).2.2]

theorem not_mem_toDigits {c : UInt16} (hc : isDigit 10 c = false) (n : Nat) : c ∉ toDigits 10 n :=
  not_mem_of_all_digits hc (toDigits_spec n).2.1

/-- The text of an integer has digits, and a minus in front of them or none. -/
theorem not_mem_intText {c : UInt16} (hc : isDigit 10 c = false) (hminus : c ≠ 0x2D) (n : Int) :
    c ∉ intText n := by
  have hdigits := not_mem_toDigits hc n.natAbs
  unfold intText
  split
  · rw [List.mem_cons, not_or]
    exact ⟨hminus, hdigits⟩
  · exact hdigits

theorem toDigits_ne_minus (k : Nat) (digits : Text) : toDigits 10 k ≠ 0x2D :: digits := by
  intro hk
  have hnot := not_mem_toDigits (c := 0x2D) (by decide) k
  rw [hk] at hnot
  exact hnot List.mem_cons_self

/-- **Different integers have different texts.** -/
theorem intText_inj {m n : Int} (h : intText m = intText n) : m = n := by
  unfold intText at h
  split at h
  · split at h
    · have habs := toDigits_inj (List.cons_inj_right _ |>.mp h)
      omega
    · exact absurd h.symm (toDigits_ne_minus _ _)
  · split at h
    · exact absurd h (toDigits_ne_minus _ _)
    · have habs := toDigits_inj h
      omega

/-! ## Doubles -/

/-- The nearest integer, and of two the even one. -/
def roundHalfEven (q : ℚ) : ℤ :=
  if q - ⌊q⌋ < 1 / 2 then ⌊q⌋
  else if 1 / 2 < q - ⌊q⌋ then ⌊q⌋ + 1
  else if ⌊q⌋ % 2 = 0 then ⌊q⌋ else ⌊q⌋ + 1

/-- The nearest double: 53 binary digits from the first one on, and none below `2 ^ (-1074)`. -/
def toDouble (q : ℚ) : Option ℚ :=
  if q = 0 then some 0
  else
    let exponent := max (Int.log 2 |q| - 52) (-1074)
    let rounded : ℚ := roundHalfEven (q / 2 ^ exponent) * 2 ^ exponent
    if |rounded| < 2 ^ 1024 then some rounded else none

theorem roundHalfEven_intCast (n : ℤ) : roundHalfEven n = n := by
  unfold roundHalfEven
  rw [Int.floor_intCast, sub_self, if_pos (by norm_num)]

/-- **A small integer is a double.** -/
theorem toDouble_intCast {n : ℤ} (h : |n| < 2 ^ 53) : toDouble n = some (n : ℚ) := by
  unfold toDouble
  by_cases hzero : n = 0
  · subst hzero
    rw [if_pos Int.cast_zero]
    rfl
  have hne : (n : ℚ) ≠ 0 := Int.cast_ne_zero.mpr hzero
  have habs : (0 : ℚ) < |(n : ℚ)| := abs_pos.mpr hne
  have hlt : |(n : ℚ)| < 2 ^ 53 := by exact_mod_cast h
  have hge : (1 : ℚ) ≤ |(n : ℚ)| := by exact_mod_cast Int.one_le_abs hzero
  have hlog : Int.log 2 |(n : ℚ)| < 53 :=
    (Int.lt_zpow_iff_log_lt (by decide) habs).mp (by exact_mod_cast hlt)
  have hlog' : 0 ≤ Int.log 2 |(n : ℚ)| :=
    (Int.zpow_le_iff_le_log (by decide) habs).mp (by simpa using hge)
  rw [if_neg hne]
  dsimp only
  rw [max_eq_left (by omega)]
  -- the exponent is not positive, so that the quotient is an integer
  obtain ⟨m, hm⟩ : ∃ m : ℕ, Int.log 2 |(n : ℚ)| - 52 = -(m : ℤ) :=
    ⟨(52 - Int.log 2 |(n : ℚ)|).toNat, by omega⟩
  have hpow : ((2 : ℚ) ^ m) ≠ 0 := by positivity
  have hquot : (n : ℚ) / 2 ^ (-(m : ℤ)) = ((n * 2 ^ m : ℤ) : ℚ) := by
    rw [zpow_neg, zpow_natCast, div_inv_eq_mul]
    push_cast
    rfl
  have hback : ((n * 2 ^ m : ℤ) : ℚ) * 2 ^ (-(m : ℤ)) = n := by
    rw [zpow_neg, zpow_natCast]
    push_cast
    field_simp
  rw [hm, hquot, roundHalfEven_intCast, hback]
  exact if_pos (hlt.trans (pow_lt_pow_right₀ (by norm_num) (by norm_num)))

/-! ## Reading -/

/-- `StrUnsignedDecimalLiteral`, but for `Infinity`: digits with a point, and an exponent. -/
def decimal (text : Text) : Option ℚ :=
  let whole := text.takeWhile (isDigit 10)
  let rest := text.dropWhile (isDigit 10)
  let (fraction, rest) := match rest with
    | 0x2E :: rest => (rest.takeWhile (isDigit 10), rest.dropWhile (isDigit 10))
    | _ => ([], rest)
  let exponent : Option ℤ := match rest with
    | [] => some 0
    | e :: rest =>
      if e = 0x65 ∨ e = 0x45 then
        let (sign, digits) := takeSign rest
        (ofLiteral 10 digits).map (sign * ·)
      else none
  if whole = [] ∧ fraction = [] then none
  else exponent.map fun (n : ℤ) => ofDigits 10
    (whole ++ fraction) * (10 : ℚ) ^ (n - fraction.length)

/-- `Number(text)`. -/
def toNumber (text : Text) : Option ℚ :=
  let body := trim text
  if body = [] then some 0
  else match takeBase body with
    | some (radix, digits) => (ofLiteral radix digits).bind fun n => toDouble n
    | none =>
      let (sign, rest) := takeSign body
      (decimal rest).bind fun q => toDouble (sign * q)

theorem trim_of_forall {text : Text} (h : ∀ c ∈ text, isWhiteSpace c = false) :
    trim text = text := by
  have hdrop : ∀ l : Text, (∀ c ∈ l, isWhiteSpace c = false) → l.dropWhile isWhiteSpace = l := by
    intro l hl
    cases l with
    | nil => rfl
    | cons c l => rw [List.dropWhile_cons, hl c List.mem_cons_self]; rfl
  rw [trim, hdrop text h, hdrop text.reverse fun c hc => h c (List.mem_reverse.mp hc),
    List.reverse_reverse]

theorem decimal_digits {digits : Text} (hne : digits ≠ []) (h : digits.all (isDigit 10) = true) :
    decimal digits = some (ofDigits 10 digits : ℚ) := by
  have hall : ∀ c ∈ digits, isDigit 10 c = true := List.all_eq_true.mp h
  unfold decimal
  rw [List.takeWhile_eq_self_iff.mpr hall, List.dropWhile_eq_nil_iff.mpr hall]
  simp [hne]

theorem exists_of_isDigit_ten {c : UInt16} (h : isDigit 10 c = true) :
    ∃ n : Fin 10, c = UInt16.ofNat (0x30 + n) := by
  have hlow : 0x30 ≤ c.toNat ∧ c.toNat ≤ 0x39 := by
    unfold isDigit digitValue at h
    split at h
    · rename_i hc
      exact hc
    · split at h
      · rename_i hc
        have hge : 0x41 ≤ c.toNat := hc.1
        have hlt : c.toNat - 0x37 < 10 := of_decide_eq_true h
        omega
      · split at h
        · rename_i hc
          have hge : 0x61 ≤ c.toNat := hc.1
          have hlt : c.toNat - 0x57 < 10 := of_decide_eq_true h
          omega
        · cases h
  refine ⟨⟨c.toNat - 0x30, by omega⟩, ?_⟩
  have hback : 0x30 + (c.toNat - 0x30) = c.toNat := by omega
  rw [hback, UInt16.ofNat_toNat]

/-- A digit is no white space, no sign, and not the letter of another base. -/
theorem isDigit_facts {c : UInt16} (h : isDigit 10 c = true) :
    (isWhiteSpace c = false ∧ c ≠ 0x2B ∧ c ≠ 0x2D) ∧
      c ≠ 0x78 ∧ c ≠ 0x58 ∧ c ≠ 0x6F ∧ c ≠ 0x4F ∧ c ≠ 0x62 ∧ c ≠ 0x42 := by
  obtain ⟨n, rfl⟩ := exists_of_isDigit_ten h
  revert n
  decide

theorem takeBase_digits {digits : Text} (h : digits.all (isDigit 10) = true) :
    takeBase digits = none := by
  have hall : ∀ c ∈ digits, isDigit 10 c = true := List.all_eq_true.mp h
  unfold takeBase
  split
  · rename_i z c rest
    obtain ⟨-, hx, hX, ho, hO, hb, hB⟩ := isDigit_facts (hall c (by simp))
    simp [hx, hX, ho, hO, hb, hB]
  · rfl

theorem takeSign_digits {digits : Text} (h : digits.all (isDigit 10) = true) :
    takeSign digits = (1, digits) := by
  cases digits with
  | nil => rfl
  | cons c rest =>
    obtain ⟨⟨-, hplus, hminus⟩, -⟩ := isDigit_facts (List.all_eq_true.mp h c List.mem_cons_self)
    show (if c = 0x2B then _ else if c = 0x2D then _ else _) = _
    rw [if_neg hplus, if_neg hminus]

theorem isWhiteSpace_intText {n : Int} : ∀ c ∈ intText n, isWhiteSpace c = false := by
  intro c hc
  have hdigits : ∀ c ∈ toDigits 10 n.natAbs, isWhiteSpace c = false := fun c hc =>
    (isDigit_facts (List.all_eq_true.mp (toDigits_spec n.natAbs).2.1 c hc)).1.1
  unfold intText at hc
  split at hc
  · rcases List.mem_cons.mp hc with rfl | hc
    · decide
    · exact hdigits c hc
  · exact hdigits c hc

/-- A sign and digits are read as an integer. -/
theorem toNumber_signed {text digits : Text} {sign n : Int} (htrim : trim text = text)
    (hne : text ≠ [])
    (hbase : takeBase text = none) (hsign : takeSign text = (sign, digits)) (hdigits : digits ≠ [])
    (hall : digits.all (isDigit 10) = true) (hn : sign * ofDigits 10 digits = n)
    (h : |n| < 2 ^ 53) :
    toNumber text = some (n : ℚ) := by
  have hq : (sign : ℚ) * (ofDigits 10 digits : ℚ) = (n : ℚ) := by
    rw [← hn]
    push_cast
    rfl
  unfold toNumber
  dsimp only
  rw [htrim, if_neg hne, hbase]
  dsimp only
  rw [hsign, decimal_digits hdigits hall, Option.bind_some, hq, toDouble_intCast h]

/-- **A small integer is read back.** -/
theorem toNumber_intText {n : Int} (h : |n| < 2 ^ 53) : toNumber (intText n) = some (n : ℚ) := by
  obtain ⟨hne, hall, hvalue⟩ := toDigits_spec n.natAbs
  have htrim := trim_of_forall (isWhiteSpace_intText (n := n))
  by_cases hneg : n < 0
  · have htext : intText n = 0x2D :: toDigits 10 n.natAbs := if_pos hneg
    rw [htext] at htrim ⊢
    have hbase : takeBase (0x2D :: toDigits 10 n.natAbs) = none := by
      generalize toDigits 10 n.natAbs = digits
      cases digits <;> rfl
    exact toNumber_signed htrim (List.cons_ne_nil _ _) hbase rfl hne hall (by rw [hvalue]; omega) h
  · have htext : intText n = toDigits 10 n.natAbs := if_neg hneg
    rw [htext] at htrim ⊢
    exact toNumber_signed htrim hne (takeBase_digits hall) (takeSign_digits hall) hne hall
      (by rw [hvalue]; omega) h

end Js
