import Mathlib.Data.Nat.Digits.Lemmas
import NiffyInsure.Lib.JsString

/-!
# Texts that are put together of parts

Numbers that are written with digits, parts with separators between them, and white space around.

* `ofLiteral_toDigits`: what `toDigits` writes is read back.
* `splitPair_join`, `splitPair_join_append`: splitting at a doubled separator leaves parts that
  single separators join.
* `trim_surrounded`: what starts and ends with no white space is trimmed to itself.
-/

namespace Js

open List

/-! ## Digits -/

/-- `n.toString(radix)`, for a radix of at most 16. -/
def toDigits (radix n : Nat) : Text :=
  if n = 0 then [0x30] else (Nat.digits radix n).reverse.map hexDigit

theorem digitValue_hexDigit {n : Nat} (h : n < 16) : digitValue (hexDigit n) = some n := by
  have hall : ∀ n : Fin 16, digitValue (hexDigit n) = some n.val := by decide
  exact hall ⟨n, h⟩

theorem foldl_digits (radix : Nat) (digits : List Nat) (h : ∀ d ∈ digits, d < 16) (start : Nat) :
    (digits.map hexDigit).foldl (fun n c => n * radix + (digitValue c).getD 0) start =
      digits.foldl (fun n d => n * radix + d) start := by
  induction digits generalizing start with
  | nil => rfl
  | cons d digits ih =>
    rw [List.forall_mem_cons] at h
    rw [List.map_cons, List.foldl_cons, List.foldl_cons, digitValue_hexDigit h.1, Option.getD_some]
    exact ih h.2 _

/-- **What is written is read back.** -/
theorem ofLiteral_toDigits (radix : Nat) (hradix : 2 ≤ radix) (hradix' : radix ≤ 16) (n : Nat) :
    ofLiteral radix (toDigits radix n) = some n := by
  unfold toDigits
  split
  · rename_i hzero
    subst hzero
    have hdigit : isDigit radix 0x30 = true := decide_eq_true (by omega : 0 < radix)
    rw [ofLiteral, if_pos ⟨List.cons_ne_nil _ _, by rw [List.all_cons, hdigit]; rfl⟩]
    exact congrArg some (Nat.zero_mul _)
  · rename_i hpos
    have hlt : ∀ d ∈ (Nat.digits radix n).reverse, d < radix := fun d hd =>
      Nat.digits_lt_base hradix (List.mem_reverse.mp hd)
    have hdigits : ((Nat.digits radix n).reverse.map hexDigit).all (isDigit radix) = true := by
      rw [List.all_map, List.all_eq_true]
      intro d hd
      show (digitValue (hexDigit d)).any (· < radix) = true
      rw [digitValue_hexDigit (Nat.lt_of_lt_of_le (hlt d hd) hradix'), Option.any_some]
      exact decide_eq_true (hlt d hd)
    have hne : (Nat.digits radix n).reverse.map hexDigit ≠ [] := by
      rw [Ne, List.map_eq_nil_iff, List.reverse_eq_nil_iff]
      exact Nat.digits_ne_nil_iff_ne_zero.mpr hpos
    rw [ofLiteral, if_pos ⟨hne, hdigits⟩, ofDigits,
      foldl_digits radix _ fun d hd => Nat.lt_of_lt_of_le (hlt d hd) hradix', List.foldl_reverse]
    refine congrArg some (Eq.trans ?_ (Nat.ofDigits_digits radix n))
    rw [Nat.ofDigits_eq_foldr]
    refine congrArg (fun step => List.foldr step 0 (Nat.digits radix n))
      (funext fun d => funext fun m => ?_)
    rw [Nat.cast_id, Nat.add_comm, Nat.mul_comm]

theorem length_toDigits_le {radix k n : Nat} (hradix : 2 ≤ radix) (hk : 0 < k) (h : n < radix ^ k) :
    (toDigits radix n).length ≤ k := by
  unfold toDigits
  split
  · exact hk
  · rw [List.length_map, List.length_reverse]
    exact (Nat.digits_length_le_iff hradix n).mpr h

theorem exists_of_isDigit {radix : Nat} {c : UInt16} (h : isDigit radix c = true) :
    ∃ d < radix, digitValue c = some d := by
  obtain ⟨d, hvalue, hd⟩ := (Option.any_eq_true _ _).mp h
  exact ⟨d, of_decide_eq_true hd, hvalue⟩

theorem foldl_digits_lt {radix : Nat} (digits : Text) (h : digits.all (isDigit radix) = true)
    (start : Nat) : digits.foldl (fun n c => n * radix + (digitValue c).getD 0) start <
      (start + 1) * radix ^ digits.length := by
  induction digits generalizing start with
  | nil =>
    rw [List.foldl_nil, List.length_nil, Nat.pow_zero, Nat.mul_one]
    exact Nat.lt_succ_self start
  | cons c digits ih =>
    rw [List.all_cons, Bool.and_eq_true] at h
    obtain ⟨d, hd, hvalue⟩ := exists_of_isDigit h.1
    have hdigit : (digitValue c).getD 0 + 1 ≤ radix := by
      rw [hvalue]
      exact hd
    rw [List.foldl_cons, List.length_cons, Nat.pow_succ', ← Nat.mul_assoc, Nat.add_mul, Nat.one_mul]
    refine Nat.lt_of_lt_of_le (ih h.2 _) (Nat.mul_le_mul_right _ ?_)
    rw [Nat.add_assoc]
    exact Nat.add_le_add_left hdigit _

theorem ofDigits_lt {radix : Nat} {digits : Text} (h : digits.all (isDigit radix) = true) :
    ofDigits radix digits < radix ^ digits.length := by
  have hlt := foldl_digits_lt digits h 0
  rw [Nat.zero_add, Nat.one_mul] at hlt
  exact hlt

theorem not_mem_of_all_digits {radix : Nat} {c : UInt16} {text : Text}
    (hc : isDigit radix c = false) (h : text.all (isDigit radix) = true) : c ∉ text := fun hmem =>
  Bool.false_ne_true (hc.symm.trans (List.all_eq_true.mp h c hmem))

/-! ## Parts -/

section Parts

variable {α β : Type} {read : α → Option β} {l : List α} {m : List β}

theorem mapM_of_forall₂ (h : List.Forall₂ (fun a b => read a = some b) l m) :
    l.mapM read = some m := by
  induction h with
  | nil => rfl
  | cons ha hl ih =>
    rw [List.mapM_cons, ha, ih]
    rfl

theorem forall₂_of_mapM (h : l.mapM read = some m) :
    List.Forall₂ (fun a b => read a = some b) l m := by
  induction l generalizing m with
  | nil =>
    rw [List.mapM_nil] at h
    obtain rfl := Option.some_inj.mp h
    exact .nil
  | cons a l ih =>
    rw [List.mapM_cons, Option.bind_eq_bind, Option.bind_eq_some_iff] at h
    obtain ⟨b, ha, h⟩ := h
    rw [Option.bind_eq_bind, Option.bind_eq_some_iff] at h
    obtain ⟨bs, hl, h⟩ := h
    obtain rfl := Option.some_inj.mp h
    exact .cons ha (ih hl)

theorem exists_of_forall₂ {r : α → β → Prop} (h : List.Forall₂ r l m) {a : α} (ha : a ∈ l) :
    ∃ b ∈ m, r a b := by
  induction h with
  | nil => exact absurd ha List.not_mem_nil
  | @cons first b l m hfirst hrest ih =>
    rcases List.mem_cons.mp ha with rfl | ha
    · exact ⟨b, List.mem_cons_self, hfirst⟩
    · obtain ⟨other, hmem, hr⟩ := ih ha
      exact ⟨other, List.mem_cons_of_mem _ hmem, hr⟩

theorem mem_intercalate {sep c : UInt16} {parts : List Text} (h : c ∈ [sep].intercalate parts) :
    c = sep ∨ ∃ part ∈ parts, c ∈ part := by
  induction parts with
  | nil => exact absurd h List.not_mem_nil
  | cons part parts ih =>
    cases parts with
    | nil =>
      rw [List.intercalate_singleton] at h
      exact .inr ⟨part, List.mem_cons_self, h⟩
    | cons next parts =>
      rw [List.intercalate_cons_cons, List.mem_append, List.mem_append, List.mem_singleton] at h
      rcases h with (h | h) | h
      · exact .inr ⟨part, List.mem_cons_self, h⟩
      · exact .inl h
      · exact (ih h).imp_right fun ⟨other, hmem, hc⟩ => ⟨other, List.mem_cons_of_mem _ hmem, hc⟩

theorem mem_intercalate_cons_cons (sep : UInt16) (first second : Text) (parts : List Text) :
    sep ∈ [sep].intercalate (first :: second :: parts) := by
  rw [List.intercalate_cons_cons]
  exact List.mem_append_left _ (List.mem_append_right _ List.mem_cons_self)

theorem intercalate_concat (sep : UInt16) (parts : List Text) (last : Text) :
    [sep].intercalate (parts ++ [last]) = parts.flatMap (· ++ [sep]) ++ last := by
  induction parts with
  | nil => exact List.intercalate_singleton
  | cons part parts ih =>
    have hne : parts ++ [last] ≠ [] := List.append_ne_nil_of_right_ne_nil _ (List.cons_ne_nil _ _)
    obtain ⟨next, more, hmore⟩ := List.exists_cons_of_ne_nil hne
    rw [List.cons_append, hmore, List.intercalate_cons_cons, ← hmore, ih, List.flatMap_cons,
      List.append_assoc, List.append_assoc, List.append_assoc]

end Parts

/-! ## Doubled separators -/

/-- A character in front of the first part. -/
def consFirst (c : UInt16) : List Text → List Text
  | [] => [[c]]
  | part :: parts => (c :: part) :: parts

/-- `text.split(pair)`, where the pair is a doubled character. -/
def splitPair (sep : UInt16) : Text → List Text
  | [] => [[]]
  | [c] => [[c]]
  | c :: d :: rest =>
    if c = sep ∧ d = sep then [] :: splitPair sep rest else consFirst c (splitPair sep (d :: rest))

section Split

variable {sep : UInt16} {part rest : Text} {parts : List Text}

/-- A text in front of the first part. -/
def appendFirst (text : Text) : List Text → List Text
  | [] => [text]
  | part :: parts => (text ++ part) :: parts

theorem splitPair_ne_nil (text : Text) : splitPair sep text ≠ [] := by
  unfold splitPair
  split
  · exact List.cons_ne_nil _ _
  · exact List.cons_ne_nil _ _
  · split
    · exact List.cons_ne_nil _ _
    · unfold consFirst
      split <;> exact List.cons_ne_nil _ _

theorem splitPair_cons {c : UInt16} (h : c ≠ sep ∨ rest.head? ≠ some sep) :
    splitPair sep (c :: rest) = consFirst c (splitPair sep rest) := by
  cases rest with
  | nil => rfl
  | cons d rest =>
    rw [splitPair, if_neg]
    rintro ⟨rfl, rfl⟩
    rcases h with h | h <;> exact h rfl

/-- A part without separators stands in front of what comes of the rest. -/
theorem splitPair_append (h : sep ∉ part) :
    splitPair sep (part ++ rest) = appendFirst part (splitPair sep rest) := by
  have hne : splitPair sep rest ≠ [] := splitPair_ne_nil rest
  induction part with
  | nil =>
    cases hsplit : splitPair sep rest with
    | nil => exact absurd hsplit hne
    | cons first more => exact hsplit
  | cons c part ih =>
    rw [List.mem_cons, not_or] at h
    rw [List.cons_append, splitPair_cons (.inl (Ne.symm h.1)), ih h.2]
    cases splitPair sep rest <;> rfl

theorem appendFirst_append (a b : Text) (l : List Text) :
    appendFirst a (appendFirst b l) = appendFirst (a ++ b) l := by
  cases l with
  | nil => rfl
  | cons first more => exact congrArg (· :: more) (List.append_assoc a b first).symm

theorem consFirst_eq (c : UInt16) (l : List Text) : consFirst c l = appendFirst [c] l := by
  cases l <;> rfl

/-- Parts that single separators join stand in front of what comes of the rest, where the rest does
not double the last separator. -/
theorem splitPair_intercalate (hparts : ∀ part ∈ parts, part ≠ [] ∧ sep ∉ part) :
    splitPair sep ([sep].intercalate parts ++ rest) =
      appendFirst ([sep].intercalate parts) (splitPair sep rest) := by
  induction parts with
  | nil =>
    cases hsplit : splitPair sep rest with
    | nil => exact absurd hsplit (splitPair_ne_nil rest)
    | cons first more => exact hsplit
  | cons part parts ih =>
    rw [List.forall_mem_cons] at hparts
    cases parts with
    | nil =>
      rw [List.intercalate_singleton]
      exact splitPair_append hparts.1.2
    | cons next parts =>
      have hhead : ([sep].intercalate (next :: parts) ++ rest).head? ≠ some sep := by
        obtain ⟨hne, hnot⟩ := (List.forall_mem_cons.mp hparts.2).1
        obtain ⟨c, next, rfl⟩ := List.exists_cons_of_ne_nil hne
        rw [List.intercalate_cons_cons_left, List.cons_append, List.head?_cons]
        exact fun h => hnot (Option.some_inj.mp h ▸ List.mem_cons_self)
      rw [List.intercalate_cons_cons, List.append_assoc, List.append_assoc,
        splitPair_append hparts.1.2, List.singleton_append, splitPair_cons (.inr hhead),
        ih hparts.2, consFirst_eq, appendFirst_append,
        appendFirst_append, List.append_assoc]

/-- **Parts that single separators join are not split.** -/
theorem splitPair_join (hparts : ∀ part ∈ parts, part ≠ [] ∧ sep ∉ part) :
    splitPair sep ([sep].intercalate parts) = [[sep].intercalate parts] := by
  have h : splitPair sep ([sep].intercalate parts ++ []) = _ := splitPair_intercalate hparts
  rw [List.append_nil] at h
  rw [h, splitPair, appendFirst, List.append_nil]

/-- **A doubled separator behind them splits.** -/
theorem splitPair_join_append (hparts : ∀ part ∈ parts, part ≠ [] ∧ sep ∉ part) :
    splitPair sep ([sep].intercalate parts ++ sep :: sep :: rest) =
      [sep].intercalate parts :: splitPair sep rest := by
  rw [splitPair_intercalate hparts, splitPair, if_pos ⟨rfl, rfl⟩, appendFirst, List.append_nil]

end Split

/-! ## White space around -/

/-- White space in front of a text that starts otherwise is dropped. -/
theorem dropWhile_surrounded {p : UInt16 → Bool} {left : Text} {c : UInt16} {rest : Text}
    (hleft : ∀ d ∈ left, p d = true) (hc : p c = false) :
    (left ++ c :: rest).dropWhile p = c :: rest := by
  rw [List.dropWhile_append_of_pos hleft, List.dropWhile_cons, hc]
  rfl

/-- **What starts and ends with no white space is trimmed to itself.** -/
theorem trim_surrounded {left right text : Text} {c d : UInt16} (front back : Text)
    (hleft : ∀ x ∈ left, isWhiteSpace x = true) (hright : ∀ x ∈ right, isWhiteSpace x = true)
    (hc : isWhiteSpace c = false) (hd : isWhiteSpace d = false) (hfront : text = c :: back)
    (hback : text = front ++ [d]) : trim (left ++ text ++ right) = text := by
  have hdrop : (left ++ text ++ right).dropWhile isWhiteSpace = text ++ right := by
    rw [List.append_assoc, hfront, List.cons_append]
    exact dropWhile_surrounded hleft hc
  rw [trim, hdrop, List.reverse_append]
  have hrest : (right.reverse ++ text.reverse).dropWhile isWhiteSpace = text.reverse := by
    rw [hback, List.reverse_append, List.reverse_singleton, List.singleton_append]
    exact dropWhile_surrounded (fun x hx => hright x (List.mem_reverse.mp hx)) hd
  rw [hrest, List.reverse_reverse]

/-- What stands in front of a last character that is no white space remains. -/
theorem dropWhile_append_cons {p : UInt16 → Bool} {d : UInt16} (hd : p d = false)
    (back front : Text) : ∃ rest, (back ++ d :: front).dropWhile p = rest ++ d :: front := by
  induction back with
  | nil => exact ⟨[], by rw [List.nil_append, List.dropWhile_cons, hd]; rfl⟩
  | cons c back ih =>
    rw [List.cons_append, List.dropWhile_cons]
    split
    · exact ih
    · exact ⟨c :: back, rfl⟩

/-- **Trimming keeps what stands in front of a character that is no white space.** -/
theorem exists_trim_append {left front rest : Text} {c d : UInt16} (right : Text)
    (hleft : ∀ x ∈ left, isWhiteSpace x = true) (hfront : front = c :: rest)
    (hc : isWhiteSpace c = false) (hd : isWhiteSpace d = false) (back : Text) :
    ∃ back', trim (left ++ (front ++ d :: back) ++ right) = front ++ d :: back' := by
  have hdrop : (left ++ (front ++ d :: back) ++ right).dropWhile isWhiteSpace =
      front ++ d :: (back ++ right) := by
    rw [List.append_assoc, hfront, List.cons_append, List.cons_append,
      dropWhile_surrounded hleft hc, List.append_assoc]
    rfl
  obtain ⟨more, hmore⟩ := dropWhile_append_cons hd (back ++ right).reverse front.reverse
  refine ⟨more.reverse, ?_⟩
  rw [trim, hdrop, List.reverse_append, List.reverse_cons, List.append_assoc, List.singleton_append,
    hmore, List.reverse_append, List.reverse_cons, List.reverse_reverse, List.append_assoc,
    List.singleton_append]

end Js
