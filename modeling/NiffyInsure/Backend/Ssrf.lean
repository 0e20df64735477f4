import NiffyInsure.Lib.JsParts

/-!
# The filter of webhook addresses

`isBlockedIp` refuses the addresses of private and other special networks.  It takes a literal apart
by hand.  A literal of version 6 has eight groups; zero groups can be left out at one place, the
last two groups can be written as an address of version 4, and a zone can follow.

* `isBlockedOctets_iff`, `isBlockedGroups_iff`: the tests on octets and groups are about networks.
* `expandIpv6_of_spells`: every spelling expands to the groups of the address.
* `isBlockedIp_iff`: whether an address is blocked depends on the address, not on its spelling.
-/

namespace NiffyInsure.Backend.Ssrf

open Js List

/-! ## The code -/

/-- The octet that up to three digits are written for. -/
def parseOctet (part : Text) : Option Nat :=
  if part.length ≤ 3 then (ofLiteral 10 part).filter (· ≤ 255) else none

def parseIpv4 (ip : Text) : Option (List Nat) :=
  let parts := ip.splitOn 0x2E
  if parts.length ≠ 4 then none else parts.mapM parseOctet

/-- The tests of `isBlockedIpv4`. -/
def isBlockedOctets (octets : List Nat) : Bool :=
  match octets with
  | a :: b :: _ =>
    a = 0 || a = 10 || a = 127 || (a = 169 && b = 254) || (a = 172 && 16 ≤ b && b ≤ 31) ||
      (a = 192 && b = 168) || (a = 192 && b = 0) || (a = 100 && 64 ≤ b && b ≤ 127) ||
      (a = 198 && (b = 18 || b = 19)) || (a = 198 && b = 51) || (a = 203 && b = 0) || 224 ≤ a
  | _ => false

def isBlockedIpv4 (ip : Text) : Bool :=
  match parseIpv4 ip with
  | none => false
  | some octets => isBlockedOctets octets

/-- An address of version 4 at the end is written as two groups. -/
def replaceIpv4Tail (addr : Text) : Option Text :=
  if 0x2E ∈ addr then
    let start := match lastIndexOf 0x3A addr with
      | some i => i + 1
      | none => 0
    match parseIpv4 (addr.drop start) with
    | some [a, b, c, d] =>
      some (addr.take start ++ toDigits 16 (a <<< 8 ||| b) ++ 0x3A :: toDigits 16 (c <<< 8 ||| d))
    | _ => none
  else some addr

/-- The group that up to four hex digits are written for. -/
def parseGroup (grp : Text) : Option Nat := if grp.length ≤ 4 then ofLiteral 16 grp else none

def toGroups (s : Text) : Option (List Nat) :=
  if s = [] then some [] else (s.splitOn 0x3A).mapM parseGroup

/-- The groups of a literal without an address of version 4 in it. -/
def expandGroups (addr : Text) : Option (List Nat) :=
  match splitPair 0x3A addr with
  | [all] =>
    match toGroups all with
    | some groups => if groups.length = 8 then some groups else none
    | none => none
  | [first, second] =>
    match toGroups first, toGroups second with
    | some head, some tail =>
      if 8 < head.length + tail.length then none
      else some (head ++ List.replicate (8 - head.length - tail.length) 0 ++ tail)
    | _, _ => none
  | _ => none

/-- `expandIpv6`: what stands before the zone id. -/
def expandIpv6 (ip : Text) : Option (List Nat) :=
  (replaceIpv4Tail (ip.takeWhile (· ≠ 0x25))).bind expandGroups

/-- `octets.join('.')`. -/
def joinOctets (a b c d : Nat) : Text :=
  toDigits 10 a ++ 0x2E :: (toDigits 10 b ++ 0x2E :: (toDigits 10 c ++ 0x2E :: toDigits 10 d))

/-- The tests of `isBlockedIpv6`. -/
def isBlockedGroups (groups : List Nat) : Bool :=
  match groups with
  | [g₀, g₁, g₂, g₃, g₄, g₅, g₆, g₇] =>
    let isZero (gs : List Nat) : Bool := gs.all (· = 0)
    isZero [g₀, g₁, g₂, g₃, g₄, g₅, g₆, g₇] ||
      (isZero [g₀, g₁, g₂, g₃, g₄, g₅, g₆] && g₇ = 1) ||
      (isZero [g₀, g₁, g₂, g₃, g₄] && g₅ = 0xFFFF &&
        isBlockedIpv4 (joinOctets (g₆ >>> 8 &&& 0xFF) (g₆ &&& 0xFF) (g₇ >>> 8 &&& 0xFF)
          (g₇ &&& 0xFF))) ||
      g₀ &&& 0xFE00 = 0xFC00 || g₀ &&& 0xFFC0 = 0xFE80 || g₀ &&& 0xFF00 = 0xFF00
  | _ => false

def isBlockedIpv6 (ip : Text) : Bool :=
  match expandIpv6 ip with
  | none => false
  | some groups => isBlockedGroups groups

/-- `text.replace(/^\[|\]$/g, '')`. -/
def stripBrackets (text : Text) : Text :=
  let rest := if text.head? = some 0x5B then text.tail else text
  if rest.getLast? = some 0x5D then rest.dropLast else rest

def isBlockedIp (ip : Text) : Bool :=
  let trimmed := stripBrackets (trim ip)
  if (parseIpv4 trimmed).isSome then isBlockedIpv4 trimmed else isBlockedIpv6 trimmed

/-! ## Addresses and networks -/

/-- An address: a number of 32 or of 128 bits. -/
inductive Address where
  | v4 (value : Fin (2 ^ 32))
  | v6 (value : Fin (2 ^ 128))

/-- The number with the given digits. -/
def ofParts (base : Nat) (parts : List Nat) : Nat := parts.foldl (fun n part => n * base + part) 0

/-- The network of the numbers that agree with `start` but for the last `free` bits. -/
def InNetwork (start free n : Nat) : Prop := n / 2 ^ free = start / 2 ^ free

/-- The networks of version 4: the octets of an address, and the bits that are free. -/
def networksV4 : List (List Nat × Nat) :=
  [([0, 0, 0, 0], 24), ([10, 0, 0, 0], 24), ([127, 0, 0, 0], 24), ([169, 254, 0, 0], 16),
    ([172, 16, 0, 0], 20), ([192, 168, 0, 0], 16), ([192, 0, 0, 0], 16), ([100, 64, 0, 0], 22),
    ([198, 18, 0, 0], 17), ([198, 51, 0, 0], 16), ([203, 0, 0, 0], 16), ([224, 0, 0, 0], 29)]

def BlockedV4 (n : Nat) : Prop := ∃ net ∈ networksV4, InNetwork (ofParts 256 net.1) net.2 n

/-- The networks of version 6: `::`, `::1`, `fc00::/7`, `fe80::/10` and `ff00::/8`. -/
def networksV6 : List (List Nat × Nat) :=
  [([0, 0, 0, 0, 0, 0, 0, 0], 0), ([0, 0, 0, 0, 0, 0, 0, 1], 0),
    ([0xFC00, 0, 0, 0, 0, 0, 0, 0], 121), ([0xFE80, 0, 0, 0, 0, 0, 0, 0], 118),
    ([0xFF00, 0, 0, 0, 0, 0, 0, 0], 120)]

/-- `::ffff:0:0/96`, with an address of version 4 in the last bits. -/
def mapped (n : Nat) : Nat := 0xFFFF * 2 ^ 32 + n

def BlockedV6 (n : Nat) : Prop :=
  (∃ net ∈ networksV6, InNetwork (ofParts 65536 net.1) net.2 n) ∨
    ∃ m < 2 ^ 32, n = mapped m ∧ BlockedV4 m

def Address.Blocked : Address → Prop
  | v4 value => BlockedV4 value
  | v6 value => BlockedV6 value

/-! ## Spellings -/

/-- Up to three decimal digits. -/
structure SpellsOctet (text : Text) (n : Nat) : Prop where
  ne_nil : text ≠ []
  length : text.length ≤ 3
  digits : text.all (isDigit 10) = true
  value : ofDigits 10 text = n
  bound : n ≤ 255

/-- Up to four hex digits, in either case. -/
structure SpellsGroup (text : Text) (n : Nat) : Prop where
  ne_nil : text ≠ []
  length : text.length ≤ 4
  digits : text.all (isDigit 16) = true
  value : ofDigits 16 text = n

/-- Four octets with dots between them. -/
def SpellsQuad (text : Text) (octets : List Nat) : Prop :=
  ∃ parts, List.Forall₂ SpellsOctet parts octets ∧ octets.length = 4 ∧
    text = [0x2E].intercalate parts

/-- Some groups with colons between them, maybe none. -/
def SpellsGroups (text : Text) (groups : List Nat) : Prop :=
  ∃ parts, List.Forall₂ SpellsGroup parts groups ∧ text = [0x3A].intercalate parts

/-- The end of a literal: groups, of which the last two can be spelled as octets. -/
inductive SpellsEnd : Text → List Nat → Prop
  | groups {text : Text} {groups : List Nat} (h : SpellsGroups text groups) : SpellsEnd text groups
  | quad {parts : List Text} {groups : List Nat} {quad : Text} {a b c d : Nat}
      (hparts : List.Forall₂ SpellsGroup parts groups) (hquad : SpellsQuad quad [a, b, c, d]) :
      SpellsEnd ([0x3A].intercalate (parts ++ [quad])) (groups ++ [a * 256 + b, c * 256 + d])

/-- A literal of version 6: all eight groups, or two colons for at least one zero group. -/
inductive SpellsV6 : Text → List Nat → Prop
  | full {text : Text} {groups : List Nat} (h : SpellsEnd text groups)
      (hlength : groups.length = 8) : SpellsV6 text groups
  | compressed {first second : Text} {head tail : List Nat} (hfirst : SpellsGroups first head)
      (hsecond : SpellsEnd second tail) (hlength : head.length + tail.length ≤ 7) :
      SpellsV6 (first ++ 0x3A :: 0x3A :: second)
        (head ++ List.replicate (8 - head.length - tail.length) 0 ++ tail)

/-- White space around a text, and brackets within it. -/
inductive Surrounded (core : Text) : Text → Prop
  | plain {left right : Text} (hleft : ∀ c ∈ left, isWhiteSpace c = true)
      (hright : ∀ c ∈ right, isWhiteSpace c = true) : Surrounded core (left ++ core ++ right)
  | brackets {left right : Text} (hleft : ∀ c ∈ left, isWhiteSpace c = true)
      (hright : ∀ c ∈ right, isWhiteSpace c = true) :
      Surrounded core (left ++ (0x5B :: (core ++ [0x5D])) ++ right)

theorem Surrounded.self (core : Text) : Surrounded core core := by
  have h : Surrounded core ([] ++ core ++ []) :=
    .plain (fun _ h => absurd h List.not_mem_nil) (fun _ h => absurd h List.not_mem_nil)
  rw [List.nil_append, List.append_nil] at h
  exact h

/-- **The valid spellings of an address.** -/
inductive Spells : Text → Address → Prop
  | v4 {core text : Text} {octets : List Nat} {value : Fin (2 ^ 32)} (h : SpellsQuad core octets)
      (hvalue : ofParts 256 octets = value) (hsurrounded : Surrounded core text) :
        Spells text (.v4 value)
  | v6 {core text : Text} {groups : List Nat} {value : Fin (2 ^ 128)} (h : SpellsV6 core groups)
      (hvalue : ofParts 65536 groups = value) (hsurrounded : Surrounded core text) :
        Spells text (.v6 value)
  | zone {core zone text : Text} {groups : List Nat} {value : Fin (2 ^ 128)}
      (h : SpellsV6 core groups)
      (hvalue : ofParts 65536 groups = value)
      (hsurrounded : Surrounded (core ++ 0x25 :: zone) text) :
      Spells text (.v6 value)

/-! ## Reading octets and groups -/

section Read

variable {text : Text} {n : Nat}

theorem parseOctet_of_spells (h : SpellsOctet text n) : parseOctet text = some n := by
  rw [parseOctet, if_pos h.length, ofLiteral_eq_some_iff.mpr ⟨h.ne_nil, h.digits, h.value⟩,
    Option.filter_some, if_pos (decide_eq_true h.bound)]

theorem parseGroup_of_spells (h : SpellsGroup text n) : parseGroup text = some n := by
  rw [parseGroup, if_pos h.length]
  exact ofLiteral_eq_some_iff.mpr ⟨h.ne_nil, h.digits, h.value⟩

/-- The characters of literals. -/
def IsLiteral (c : UInt16) : Prop := isDigit 16 c = true ∨ c = 0x3A ∨ c = 0x2E

instance : DecidablePred IsLiteral := fun _ => inferInstanceAs (Decidable (_ ∨ _ ∨ _))

theorem not_isLiteral_percent : ¬ IsLiteral 0x25 := by decide

theorem isDigit_mono {c : UInt16} (h : isDigit 10 c = true) : isDigit 16 c = true := by
  obtain ⟨d, hd, hvalue⟩ := exists_of_isDigit h
  rw [isDigit, hvalue]
  exact decide_eq_true (Nat.lt_trans hd (by decide))

theorem parseOctet_digits (h : parseOctet text = some n) : text.all (isDigit 10) = true := by
  unfold parseOctet at h
  split at h
  · exact (ofLiteral_eq_some_iff.mp (Option.filter_eq_some_iff.mp h).1).2.1
  · exact absurd h (Option.some_ne_none n).symm

end Read

section Quad

variable {text : Text} {octets groups : List Nat}

theorem SpellsOctet.not_mem {part : Text} {n : Nat} {c : UInt16} (h : SpellsOctet part n)
    (hc : isDigit 10 c = false) : c ∉ part := not_mem_of_all_digits hc h.digits

theorem SpellsGroup.not_mem {part : Text} {n : Nat} {c : UInt16} (h : SpellsGroup part n)
    (hc : isDigit 16 c = false) : c ∉ part := not_mem_of_all_digits hc h.digits

theorem parseIpv4_of_spells (h : SpellsQuad text octets) : parseIpv4 text = some octets := by
  obtain ⟨parts, hparts, hlength, rfl⟩ := h
  have hsplit : ([0x2E].intercalate parts).splitOn 0x2E = parts := by
    refine List.splitOn_intercalate 0x2E (fun part hpart => ?_) fun hnil => ?_
    · obtain ⟨n, -, hn⟩ := exists_of_forall₂ hparts hpart
      exact hn.not_mem (by decide)
    · rw [hnil] at hparts
      cases hparts
      exact absurd hlength (by decide)
  simp only [parseIpv4, hsplit]
  rw [if_neg (not_not.mpr (hparts.length_eq.trans hlength))]
  exact mapM_of_forall₂ (hparts.imp fun _ _ => parseOctet_of_spells)

theorem SpellsQuad.dot_mem (h : SpellsQuad text octets) : 0x2E ∈ text := by
  obtain ⟨parts, hparts, hlength, rfl⟩ := h
  match parts, hparts.length_eq.trans hlength with
  | first :: second :: parts, _ => exact mem_intercalate_cons_cons 0x2E first second parts

theorem SpellsQuad.bound (h : SpellsQuad text octets) : ∀ n ∈ octets, n ≤ 255 := by
  obtain ⟨parts, hparts, -, -⟩ := h
  intro n hn
  obtain ⟨part, -, hpart⟩ := exists_of_forall₂ hparts.flip hn
  exact SpellsOctet.bound hpart

/-- A text that reads as four octets has no colon in it. -/
theorem colon_not_mem (h : parseIpv4 text = some octets) : 0x3A ∉ text := by
  intro hmem
  simp only [parseIpv4] at h
  split at h
  · exact absurd h (Option.some_ne_none octets).symm
  · have hread := forall₂_of_mapM h
    have hjoin : [0x2E].intercalate (text.splitOn 0x2E) = text := List.intercalate_splitOn 0x2E
    rw [← hjoin] at hmem
    rcases mem_intercalate hmem with hdot | ⟨part, hpart, hcolon⟩
    · exact absurd hdot (by decide)
    · obtain ⟨n, -, hn⟩ := exists_of_forall₂ hread hpart
      exact not_mem_of_all_digits (by decide) (parseOctet_digits hn) hcolon

end Quad

theorem isLiteral_of_quad {text : Text} {octets : List Nat} (h : SpellsQuad text octets) :
    ∀ c ∈ text, IsLiteral c := by
  obtain ⟨parts, hparts, -, rfl⟩ := h
  intro c hc
  rcases mem_intercalate hc with hdot | ⟨part, hpart, hc⟩
  · exact .inr (.inr hdot)
  · obtain ⟨n, -, hn⟩ := exists_of_forall₂ hparts hpart
    exact .inl (isDigit_mono (List.all_eq_true.mp hn.digits c hc))

section Groups

variable {text front : Text} {groups : List Nat}

theorem SpellsGroup.part {part : Text} {n : Nat} (h : SpellsGroup part n) :
    part ≠ [] ∧ 0x3A ∉ part :=
  ⟨h.ne_nil, h.not_mem (by decide)⟩

theorem parts_of_forall₂ {parts : List Text} (h : List.Forall₂ SpellsGroup parts groups) :
    ∀ part ∈ parts, part ≠ [] ∧ 0x3A ∉ part := fun part hpart => by
  obtain ⟨n, -, hn⟩ := exists_of_forall₂ h hpart
  exact hn.part

theorem dot_not_mem {parts : List Text} (h : List.Forall₂ SpellsGroup parts groups) :
    0x2E ∉ [0x3A].intercalate parts := by
  intro hmem
  rcases mem_intercalate hmem with hcolon | ⟨part, hpart, hdot⟩
  · exact absurd hcolon (by decide)
  · obtain ⟨n, -, hn⟩ := exists_of_forall₂ h hpart
    exact hn.not_mem (by decide) hdot

theorem intercalate_ne_nil {parts : List Text} (hne : parts ≠ []) (h : ∀ part ∈ parts, part ≠ []) :
    [0x3A].intercalate parts ≠ [] := by
  obtain ⟨part, parts, rfl⟩ := List.exists_cons_of_ne_nil hne
  cases parts with
  | nil =>
    rw [List.intercalate_singleton]
    exact h part List.mem_cons_self
  | cons next parts =>
    rw [List.intercalate_cons_cons]
    exact List.append_ne_nil_of_left_ne_nil (List.append_ne_nil_of_right_ne_nil _
      (List.cons_ne_nil _ _)) _

theorem toGroups_of_spells (h : SpellsGroups text groups) : toGroups text = some groups := by
  obtain ⟨parts, hparts, rfl⟩ := h
  cases hparts with
  | nil => rfl
  | @cons part n parts groups hpart hparts =>
    have hall := List.Forall₂.cons hpart hparts
    have hmem := parts_of_forall₂ hall
    rw [toGroups, if_neg (intercalate_ne_nil (List.cons_ne_nil _ _) fun part hpart =>
      (hmem part hpart).1),
      List.splitOn_intercalate 0x3A (fun part hpart => (hmem part hpart).2) (List.cons_ne_nil _ _)]
    exact mapM_of_forall₂ (hall.imp fun _ _ => parseGroup_of_spells)

theorem spellsGroup_toDigits {n : Nat} (h : n < 65536) : SpellsGroup (toDigits 16 n) n := by
  have hread := ofLiteral_eq_some_iff.mp (ofLiteral_toDigits 16 (by decide) (by decide) n)
  exact ⟨hread.1, length_toDigits_le (by decide) (by decide) h, hread.2.1, hread.2.2⟩

theorem shiftLeft_or {a b : Nat} (hb : b ≤ 255) : a <<< 8 ||| b = a * 256 + b := by
  rw [← Nat.shiftLeft_add_eq_or_of_lt (by omega : b < 2 ^ 8), Nat.shiftLeft_eq]

/-- The last colon is where the last part starts. -/
theorem start_of_lead {lead quad : Text} (hlead : lead = [] ∨ ∃ body, lead = body ++ [0x3A])
    (hquad : 0x3A ∉ quad) :
    (match lastIndexOf 0x3A (lead ++ quad) with
      | some i => i + 1
      | none => 0) = lead.length := by
  rcases hlead with rfl | ⟨body, rfl⟩
  · rw [List.nil_append, lastIndexOf_of_not_mem hquad]
    rfl
  · rw [List.append_assoc, List.singleton_append, lastIndexOf_append body hquad, List.length_append]
    rfl

end Groups

/-! ## Expanding -/

section Expand

variable {text front : Text} {groups : List Nat}

/-- Octets at the end behind a lead are written as two groups. -/
theorem replaceIpv4Tail_quad {lead quad : Text} {a b c d : Nat}
    (hlead : lead = [] ∨ ∃ body, lead = body ++ [0x3A]) (hquad : SpellsQuad quad [a, b, c, d]) :
    replaceIpv4Tail (lead ++ quad) =
      some (lead ++ toDigits 16 (a <<< 8 ||| b) ++ 0x3A :: toDigits 16 (c <<< 8 ||| d)) := by
  have hread := parseIpv4_of_spells hquad
  have hdot : 0x2E ∈ lead ++ quad := List.mem_append_right _ hquad.dot_mem
  have hstart := start_of_lead hlead (colon_not_mem hread)
  simp only [replaceIpv4Tail]
  rw [if_pos hdot, hstart, List.drop_left, hread, List.take_left]

/-- **The end of a literal becomes groups.** -/
theorem replaceIpv4Tail_of_spells (front : Text) (hend : SpellsEnd text groups)
    (hdot : 0x2E ∉ front) (hfront : front = [] ∨ ∃ body, front = body ++ [0x3A]) :
    ∃ plain, replaceIpv4Tail (front ++ text) = some (front ++ plain) ∧
      SpellsGroups plain groups := by
  cases hend with
  | groups h =>
    refine ⟨text, ?_, h⟩
    obtain ⟨parts, hparts, rfl⟩ := h
    rw [replaceIpv4Tail, if_neg fun hmem =>
      (List.mem_append.mp hmem).elim hdot (dot_not_mem hparts)]
  | @quad parts groups quad a b c d hparts hquad =>
    have hlead : front ++ parts.flatMap (· ++ [0x3A]) = [] ∨
        ∃ body, front ++ parts.flatMap (· ++ [0x3A]) = body ++ [0x3A] := by
      rcases List.eq_nil_or_concat parts with rfl | ⟨before, last, rfl⟩
      · rw [List.flatMap_nil, List.append_nil]
        exact hfront
      · refine .inr ⟨front ++ before.flatMap (· ++ [0x3A]) ++ last, ?_⟩
        rw [List.concat_eq_append, List.flatMap_append, List.flatMap_singleton, List.append_assoc,
          List.append_assoc]
    have hbound := hquad.bound
    have htail : List.Forall₂ SpellsGroup [toDigits 16 (a <<< 8 ||| b), toDigits 16 (c <<< 8 ||| d)]
        [a * 256 + b, c * 256 + d] := by
      simp only [List.forall_mem_cons] at hbound
      rw [shiftLeft_or hbound.2.1, shiftLeft_or hbound.2.2.2.1]
      exact .cons (spellsGroup_toDigits (by omega)) (.cons (spellsGroup_toDigits (by omega)) .nil)
    refine ⟨_, ?_, parts ++ _, List.rel_append hparts htail, rfl⟩
    rw [intercalate_concat, ← List.append_assoc, replaceIpv4Tail_quad hlead hquad,
      ← List.singleton_append (x := toDigits 16 (a <<< 8 ||| b)), ← List.append_assoc parts,
      intercalate_concat, List.flatMap_append, List.flatMap_singleton]
    simp only [List.append_assoc, List.cons_append, List.nil_append]

theorem expandGroups_full (h : SpellsGroups text groups) (hlength : groups.length = 8) :
    expandGroups text = some groups := by
  have hread := toGroups_of_spells h
  obtain ⟨parts, hparts, rfl⟩ := h
  rw [expandGroups, splitPair_join (parts_of_forall₂ hparts)]
  simp only [hread]
  rw [if_pos hlength]

theorem expandGroups_compressed {first second : Text} {head tail : List Nat}
    (hfirst : SpellsGroups first head) (hsecond : SpellsGroups second tail)
    (hlength : head.length + tail.length ≤ 7) :
    expandGroups (first ++ 0x3A :: 0x3A :: second) =
      some (head ++ List.replicate (8 - head.length - tail.length) 0 ++ tail) := by
  have hhead := toGroups_of_spells hfirst
  have htail := toGroups_of_spells hsecond
  obtain ⟨front, hfront, rfl⟩ := hfirst
  obtain ⟨back, hback, rfl⟩ := hsecond
  rw [expandGroups, splitPair_join_append (parts_of_forall₂ hfront),
    splitPair_join (parts_of_forall₂ hback)]
  simp only [hhead, htail]
  rw [if_neg (by omega)]

theorem isLiteral_of_parts {parts : List Text} (h : List.Forall₂ SpellsGroup parts groups) :
    ∀ part ∈ parts, ∀ c ∈ part, IsLiteral c := by
  intro part hpart c hc
  obtain ⟨n, -, hn⟩ := exists_of_forall₂ h hpart
  exact .inl (List.all_eq_true.mp hn.digits c hc)

/-- The characters of the end of a literal. -/
theorem isLiteral_of_end (h : SpellsEnd text groups) : ∀ c ∈ text, IsLiteral c := by
  intro c hc
  cases h with
  | groups h =>
    obtain ⟨parts, hparts, rfl⟩ := h
    rcases mem_intercalate hc with hcolon | ⟨part, hpart, hc⟩
    · exact .inr (.inl hcolon)
    · exact isLiteral_of_parts hparts part hpart c hc
  | quad hparts hquad =>
    rcases mem_intercalate hc with hcolon | ⟨part, hpart, hc⟩
    · exact .inr (.inl hcolon)
    · rcases List.mem_append.mp hpart with hpart | hpart
      · exact isLiteral_of_parts hparts part hpart c hc
      · exact isLiteral_of_quad hquad c (List.mem_singleton.mp hpart ▸ hc)

theorem isLiteral_of_v6 (h : SpellsV6 text groups) : ∀ c ∈ text, IsLiteral c := by
  intro c hc
  cases h with
  | full h hlength => exact isLiteral_of_end h c hc
  | compressed hfirst hsecond hlength =>
    rw [List.mem_append, List.mem_cons, List.mem_cons] at hc
    rcases hc with hc | hc | hc | hc
    · exact isLiteral_of_end (.groups hfirst) c hc
    · exact .inr (.inl hc)
    · exact .inr (.inl hc)
    · exact isLiteral_of_end hsecond c hc

/-- **Every spelling expands to the groups of the address.** -/
theorem expandIpv6_of_spells {rest : Text} (h : SpellsV6 text groups)
    (hrest : rest = [] ∨ ∃ zone, rest = 0x25 :: zone) :
    expandIpv6 (text ++ rest) = some groups := by
  have hzone : (text ++ rest).takeWhile (· ≠ 0x25) = text := by
    have hall : ∀ c ∈ text, decide (c ≠ 0x25) = true := fun c hc =>
      decide_eq_true fun heq => not_isLiteral_percent (heq ▸ isLiteral_of_v6 h c hc)
    rw [List.takeWhile_append_of_pos hall]
    rcases hrest with rfl | ⟨zone, rfl⟩
    · exact List.append_nil text
    · exact List.append_nil text
  rw [expandIpv6, hzone]
  cases h with
  | full h hlength =>
    obtain ⟨plain, htail, hplain⟩ := replaceIpv4Tail_of_spells [] h List.not_mem_nil (.inl rfl)
    rw [List.nil_append, List.nil_append] at htail
    rw [htail]
    exact expandGroups_full hplain hlength
  | @compressed first second head tail hfirst hsecond hlength =>
    have hdot : 0x2E ∉ first ++ [0x3A, 0x3A] := by
      obtain ⟨parts, hparts, rfl⟩ := hfirst
      intro hmem
      rcases List.mem_append.mp hmem with hmem | hmem
      · exact dot_not_mem hparts hmem
      · exact absurd hmem (by decide)
    obtain ⟨plain, htail, hplain⟩ := replaceIpv4Tail_of_spells _ hsecond hdot
      (.inr ⟨first ++ [0x3A], (List.append_assoc first [0x3A] [0x3A]).symm⟩)
    rw [List.append_assoc, List.append_assoc] at htail
    have hwhole : first ++ 0x3A :: 0x3A :: second = first ++ ([0x3A, 0x3A] ++ second) := rfl
    rw [hwhole, htail]
    exact expandGroups_compressed hfirst hplain hlength

end Expand

/-! ## The digits of an address -/

theorem ofParts_concat (base : Nat) (parts : List Nat) (last : Nat) :
    ofParts base (parts ++ [last]) = ofParts base parts * base + last := by
  rw [ofParts, List.foldl_append]
  rfl

/-- The number is made of its digits. -/
theorem ofParts_digits (base k n : Nat) :
    ofParts base ((List.range k).reverse.map fun i => n / base ^ i % base) = n % base ^ k := by
  induction k generalizing n with
  | zero => rw [Nat.pow_zero, Nat.mod_one]; rfl
  | succ k ih =>
    have hrest : (fun i => n / base ^ i % base) ∘ Nat.succ = fun i => n / base / base ^ i % base :=
      funext fun i => by rw [Function.comp_apply, Nat.pow_succ', Nat.div_div_eq_div_mul]
    rw [List.range_succ_eq_map, List.reverse_cons, List.map_append, ← List.map_reverse,
      List.map_map, hrest, List.map_singleton, ofParts_concat, ih, Nat.pow_zero, Nat.div_one,
      Nat.pow_succ', Nat.mod_mul,
      Nat.mul_comm base, Nat.add_comm]

/-! ## The tests are about networks -/

/-- The masks of prefixes: what remains is a multiple of the lowest bit. -/
theorem and_mask (x k mask : Nat) (hx : x < 2 ^ 16) (hk : k ≤ 16)
    (hmask : mask / 2 ^ k = 2 ^ (16 - k) - 1)
    (hlow : mask % 2 ^ k = 0) : x &&& mask = x / 2 ^ k * 2 ^ k := by
  have hhigh : x / 2 ^ k < 2 ^ (16 - k) := by
    rw [Nat.div_lt_iff_lt_mul (Nat.two_pow_pos k), ← Nat.pow_add, Nat.sub_add_cancel hk]
    exact hx
  have hdiv : (x &&& mask) / 2 ^ k = x / 2 ^ k := by
    rw [Nat.and_div_two_pow, hmask, Nat.and_two_pow_sub_one_of_lt_two_pow hhigh]
  have hmod : (x &&& mask) % 2 ^ k = 0 := by
    rw [Nat.and_mod_two_pow, hlow, Nat.and_zero]
  have hsplit := Nat.div_add_mod' (x &&& mask) (2 ^ k)
  rw [hdiv, hmod, Nat.add_zero] at hsplit
  exact hsplit.symm

section Networks

variable {a b c d : Nat}

theorem isBlockedOctets_iff (ha : a ≤ 255) (hb : b ≤ 255) (hc : c ≤ 255) (hd : d ≤ 255) :
    isBlockedOctets [a, b, c, d] = true ↔ BlockedV4 (ofParts 256 [a, b, c, d]) := by
  obtain ⟨r, hr, hvalue⟩ :
      ∃ r < 65536, ofParts 256 [a, b, c, d] = a * 16777216 + b * 65536 + r := by
    refine ⟨c * 256 + d, by omega, ?_⟩
    simp only [ofParts, List.foldl_cons, List.foldl_nil]
    omega
  rw [hvalue]
  simp only [isBlockedOctets, Bool.or_eq_true, Bool.and_eq_true, decide_eq_true_eq,
    or_assoc, BlockedV4, networksV4, List.exists_mem_cons_iff, List.not_mem_nil, false_and,
    exists_false, or_false, InNetwork,
    ofParts, List.foldl_cons, List.foldl_nil]
  -- one network after the other, in the same order
  refine or_congr ?_ (or_congr ?_ (or_congr ?_ (or_congr ?_ (or_congr ?_ (or_congr ?_ (or_congr ?_
    (or_congr ?_ (or_congr ?_ (or_congr ?_ (or_congr ?_ ?_)))))))))) <;> omega

theorem spellsOctet_toDigits {n : Nat} (h : n ≤ 255) : SpellsOctet (toDigits 10 n) n := by
  have hread := ofLiteral_eq_some_iff.mp (ofLiteral_toDigits 10 (by decide) (by decide) n)
  exact ⟨hread.1, length_toDigits_le (by decide) (by decide) (by omega), hread.2.1, hread.2.2, h⟩

theorem spellsQuad_joinOctets (ha : a ≤ 255) (hb : b ≤ 255) (hc : c ≤ 255) (hd : d ≤ 255) :
    SpellsQuad (joinOctets a b c d) [a, b, c, d] := by
  refine ⟨[toDigits 10 a, toDigits 10 b, toDigits 10 c, toDigits 10 d], ?_, rfl, ?_⟩
  · exact .cons (spellsOctet_toDigits ha) (.cons (spellsOctet_toDigits hb)
      (.cons (spellsOctet_toDigits hc) (.cons (spellsOctet_toDigits hd) .nil)))
  · simp only [joinOctets, List.intercalate_cons_cons, List.intercalate_singleton,
      List.append_assoc, List.singleton_append]

/-- What the code writes for the four octets is read back. -/
theorem isBlockedIpv4_joinOctets (ha : a ≤ 255) (hb : b ≤ 255) (hc : c ≤ 255) (hd : d ≤ 255) :
    isBlockedIpv4 (joinOctets a b c d) = isBlockedOctets [a, b, c, d] := by
  rw [isBlockedIpv4, parseIpv4_of_spells (spellsQuad_joinOctets ha hb hc hd)]

/-- The octets of the last two groups. -/
theorem isBlockedIpv4_groups {g h : Nat} (hg : g < 65536) (hh : h < 65536) :
    isBlockedIpv4 (joinOctets (g >>> 8 &&& 0xFF) (g &&& 0xFF) (h >>> 8 &&& 0xFF) (h &&& 0xFF)) =
      true ↔ BlockedV4 (g * 65536 + h) := by
  have hlow (n : Nat) : n &&& 0xFF = n % 256 := Nat.and_two_pow_sub_one_eq_mod n 8
  have hhigh {n : Nat} (hn : n < 65536) : n >>> 8 &&& 0xFF = n / 256 := by
    rw [hlow, Nat.shiftRight_eq_div_pow]
    omega
  have hvalue : ofParts 256 [g / 256, g % 256, h / 256, h % 256] = g * 65536 + h := by
    simp only [ofParts, List.foldl_cons, List.foldl_nil]
    omega
  rw [hhigh hg, hhigh hh, hlow, hlow, isBlockedIpv4_joinOctets (by omega) (by omega)
    (by omega) (by omega), isBlockedOctets_iff (by omega) (by omega) (by omega) (by omega), hvalue]

end Networks

section Groups

variable {g₀ g₁ g₂ g₃ g₄ g₅ g₆ g₇ : Nat}

/-- The groups of a mapped address. -/
theorem exists_mapped_iff (h : ∀ g ∈ [g₀, g₁, g₂, g₃, g₄, g₅, g₆, g₇], g < 65536) :
    (∃ m < 2 ^ 32, ofParts 65536 [g₀, g₁, g₂, g₃, g₄, g₅, g₆, g₇] = mapped m ∧ BlockedV4 m) ↔
      ((g₀ = 0 ∧ g₁ = 0 ∧ g₂ = 0 ∧ g₃ = 0 ∧ g₄ = 0) ∧ g₅ = 0xFFFF) ∧
      BlockedV4 (g₆ * 65536 + g₇) := by
  simp only [List.forall_mem_cons] at h
  have hlast : g₆ * 65536 + g₇ < 4294967296 := by omega
  simp only [mapped, ofParts, List.foldl_cons, List.foldl_nil, Nat.zero_mul, Nat.zero_add,
    Nat.reducePow, Nat.reduceMul]
  constructor
  · rintro ⟨m, hm, hvalue, hblocked⟩
    have hsame : m = g₆ * 65536 + g₇ := by omega
    rw [hsame] at hblocked
    exact ⟨by omega, hblocked⟩
  · rintro ⟨⟨⟨rfl, rfl, rfl, rfl, rfl⟩, rfl⟩, hblocked⟩
    refine ⟨g₆ * 65536 + g₇, hlast, ?_, hblocked⟩
    ring

theorem isBlockedGroups_iff (h : ∀ g ∈ [g₀, g₁, g₂, g₃, g₄, g₅, g₆, g₇], g < 65536) :
    isBlockedGroups [g₀, g₁, g₂, g₃, g₄, g₅, g₆, g₇] = true ↔
      BlockedV6 (ofParts 65536 [g₀, g₁, g₂, g₃, g₄, g₅, g₆, g₇]) := by
  rw [BlockedV6, exists_mapped_iff h]
  simp only [List.forall_mem_cons, List.not_mem_nil, false_imp_iff, implies_true, and_true] at h
  obtain ⟨h₀, h₁, h₂, h₃, h₄, h₅, h₆, h₇⟩ := h
  obtain ⟨n, hn⟩ : ∃ n, n = ofParts 65536 [g₀, g₁, g₂, g₃, g₄, g₅, g₆, g₇] := ⟨_, rfl⟩
  rw [← hn]
  simp only [ofParts, List.foldl_cons, List.foldl_nil, Nat.zero_mul, Nat.zero_add] at hn
  have hmask₁ := and_mask g₀ 9 0xFE00 h₀ (by decide) (by decide) (by decide)
  have hmask₂ := and_mask g₀ 6 0xFFC0 h₀ (by decide) (by decide) (by decide)
  have hmask₃ := and_mask g₀ 8 0xFF00 h₀ (by decide) (by decide) (by decide)
  simp only [isBlockedGroups, Bool.or_eq_true, Bool.and_eq_true, decide_eq_true_eq, List.all_cons,
    List.all_nil, and_true, or_assoc, isBlockedIpv4_groups h₆ h₇, hmask₁, hmask₂, hmask₃]
  simp only [networksV6, List.exists_mem_cons_iff, List.not_mem_nil, false_and,
    exists_false, or_false, InNetwork, ofParts, List.foldl_cons, List.foldl_nil, Nat.reducePow,
    Nat.reduceMul, Nat.reduceAdd,
    Nat.reduceDiv]
  have hzero : n / 2 ^ 0 = 0 ↔ g₀ = 0 ∧ g₁ = 0 ∧ g₂ = 0 ∧ g₃ = 0 ∧ g₄ = 0 ∧ g₅ = 0 ∧
      g₆ = 0 ∧ g₇ = 0 := by
    omega
  have hone : n / 2 ^ 0 = 1 ↔
      (g₀ = 0 ∧ g₁ = 0 ∧ g₂ = 0 ∧ g₃ = 0 ∧ g₄ = 0 ∧ g₅ = 0 ∧ g₆ = 0) ∧ g₇ = 1 := by
    omega
  have hunique : n / 2 ^ 121 = 0xFC00 / 2 ^ 9 ↔ g₀ / 2 ^ 9 * 2 ^ 9 = 0xFC00 := by omega
  have hlink : n / 2 ^ 118 = 0xFE80 / 2 ^ 6 ↔ g₀ / 2 ^ 6 * 2 ^ 6 = 0xFE80 := by omega
  have hmulti : n / 2 ^ 120 = 0xFF00 / 2 ^ 8 ↔ g₀ / 2 ^ 8 * 2 ^ 8 = 0xFF00 := by omega
  simp only [Nat.reducePow, Nat.reduceDiv] at hzero hone hunique hlink hmulti
  rw [← hzero, ← hone, ← hunique, ← hlink, ← hmulti]
  constructor
  · rintro (h | h | h | h)
    · exact .inl (.inl h)
    · exact .inl (.inr (.inl h))
    · exact .inr h
    · exact .inl (.inr (.inr h))
  · rintro ((h | h | h) | h)
    · exact .inl h
    · exact .inr (.inl h)
    · exact .inr (.inr (.inr h))
    · exact .inr (.inr (.inl h))

end Groups

/-! ## White space and brackets -/

section Surroundings

variable {core text zone : Text} {c : UInt16}

theorem IsLiteral.le (h : IsLiteral c) : c.toNat ≤ 0x7A := by
  rcases h with h | rfl | rfl
  · unfold isDigit digitValue at h
    split at h
    · rename_i hc
      exact Nat.le_trans hc.2 (by decide)
    · split at h
      · rename_i hc
        exact Nat.le_trans hc.2 (by decide)
      · split at h
        · rename_i hc
          exact hc.2
        · exact absurd h Bool.false_ne_true
  · decide
  · decide

theorem IsLiteral.solid (h : IsLiteral c) : isWhiteSpace c = false ∧ c ≠ 0x5B ∧ c ≠ 0x5D := by
  have hall : ∀ n : Fin 0x7B, IsLiteral (UInt16.ofNat n) →
      isWhiteSpace (UInt16.ofNat n) = false ∧ UInt16.ofNat n ≠ 0x5B ∧ UInt16.ofNat n ≠ 0x5D := by
    decide +kernel
  have hc := hall ⟨c.toNat, Nat.lt_succ_of_le h.le⟩
  rw [UInt16.ofNat_toNat] at hc
  exact hc h

theorem stripBrackets_plain (hhead : text.head? ≠ some 0x5B) (hlast : text.getLast? ≠ some 0x5D) :
    stripBrackets text = text := by
  simp only [stripBrackets]
  rw [if_neg hhead, if_neg hlast]

theorem stripBrackets_brackets (core : Text) : stripBrackets (0x5B :: (core ++ [0x5D])) = core := by
  simp only [stripBrackets]
  rw [if_pos List.head?_cons, List.tail_cons, if_pos List.getLast?_concat, List.dropLast_concat]

theorem trim_brackets {left right : Text} (hleft : ∀ c ∈ left, isWhiteSpace c = true)
    (hright : ∀ c ∈ right, isWhiteSpace c = true) (inner : Text) :
    trim (left ++ (0x5B :: (inner ++ [0x5D])) ++ right) = 0x5B :: (inner ++ [0x5D]) :=
  trim_surrounded (0x5B :: inner) (inner ++ [0x5D]) hleft hright (by decide) (by decide) rfl rfl

theorem stripBrackets_trim (h : Surrounded core text) (hne : core ≠ [])
    (hcore : ∀ c ∈ core, IsLiteral c) : stripBrackets (trim text) = core := by
  cases h with
  | plain hleft hright =>
    obtain ⟨c, back, hc⟩ := List.exists_cons_of_ne_nil hne
    obtain ⟨front, d, hd⟩ := (List.eq_nil_or_concat core).resolve_left hne
    rw [List.concat_eq_append] at hd
    have hfirst := (hcore c (hc ▸ List.mem_cons_self)).solid
    have hlast := (hcore d (hd ▸ List.mem_append_right _ List.mem_cons_self)).solid
    rw [trim_surrounded front back hleft hright hfirst.1 hlast.1 hc hd]
    refine stripBrackets_plain ?_ ?_
    · rw [hc, List.head?_cons]
      exact fun heq => hfirst.2.1 (Option.some_inj.mp heq)
    · rw [hd, List.getLast?_concat]
      exact fun heq => hlast.2.2 (Option.some_inj.mp heq)
  | brackets hleft hright =>
    rw [trim_brackets hleft hright]
    exact stripBrackets_brackets core

/-- Only the literal and some zone remain. -/
theorem stripBrackets_trim_zone (h : Surrounded (core ++ 0x25 :: zone) text) (hne : core ≠ [])
    (hcore : ∀ c ∈ core, IsLiteral c) : ∃ zone', stripBrackets (trim text) = core ++
      0x25 :: zone' := by
  cases h with
  | @plain left right hleft hright =>
    obtain ⟨c, back, hc⟩ := List.exists_cons_of_ne_nil hne
    have hfirst := (hcore c (hc ▸ List.mem_cons_self)).solid
    obtain ⟨zone', htrim⟩ := exists_trim_append right hleft hc hfirst.1
      (by decide : isWhiteSpace 0x25 = false) zone
    have hhead : (core ++ 0x25 :: zone').head? ≠ some 0x5B := by
      rw [hc, List.cons_append, List.head?_cons]
      exact fun heq => hfirst.2.1 (Option.some_inj.mp heq)
    rw [htrim]
    by_cases hlast : (core ++ 0x25 :: zone').getLast? = some 0x5D
    · -- the code takes a bracket at the end of the zone for a closing one
      rcases List.eq_nil_or_concat zone' with rfl | ⟨zone'', d, rfl⟩
      · rw [List.getLast?_concat] at hlast
        exact absurd hlast (by decide)
      · refine ⟨zone'', ?_⟩
        simp only [stripBrackets]
        rw [if_neg hhead, if_pos hlast, List.concat_eq_append, ← List.cons_append,
          ← List.append_assoc, List.dropLast_concat]
    · exact ⟨zone', stripBrackets_plain hhead hlast⟩
  | brackets hleft hright =>
    rw [trim_brackets hleft hright]
    exact ⟨zone, stripBrackets_brackets _⟩

end Surroundings

/-! ## The filter -/

section Filter

variable {text core : Text} {groups octets : List Nat}

theorem colon_mem_of_v6 (h : SpellsV6 text groups) : 0x3A ∈ text := by
  cases h with
  | full h hlength =>
    cases h with
    | groups h =>
      obtain ⟨parts, hparts, rfl⟩ := h
      match parts, hparts.length_eq.trans hlength with
      | first :: second :: parts, _ => exact mem_intercalate_cons_cons 0x3A first second parts
    | @quad parts groups quad a b c d hparts hquad =>
      rw [List.length_append] at hlength
      match parts, hparts.length_eq.trans (Nat.succ.inj (Nat.succ.inj hlength)) with
      | first :: second :: parts, _ => exact mem_intercalate_cons_cons 0x3A first second _
  | compressed hfirst hsecond hlength => exact List.mem_append_right _ List.mem_cons_self

theorem SpellsGroup.lt {part : Text} {n : Nat} (h : SpellsGroup part n) : n < 65536 := by
  rw [← h.value]
  exact Nat.lt_of_lt_of_le (ofDigits_lt h.digits) (Nat.pow_le_pow_right (by decide) h.length)

theorem lt_of_parts {parts : List Text} (h : List.Forall₂ SpellsGroup parts groups) :
    ∀ g ∈ groups, g < 65536 := by
  intro g hg
  obtain ⟨part, -, hpart⟩ := exists_of_forall₂ h.flip hg
  exact SpellsGroup.lt hpart

theorem lt_of_end (h : SpellsEnd text groups) : ∀ g ∈ groups, g < 65536 := by
  intro g hg
  cases h with
  | groups h =>
    obtain ⟨parts, hparts, -⟩ := h
    exact lt_of_parts hparts g hg
  | @quad parts groups quad a b c d hparts hquad =>
    rcases List.mem_append.mp hg with hg | hg
    · exact lt_of_parts hparts g hg
    · have hbound := hquad.bound
      simp only [List.forall_mem_cons] at hbound
      simp only [List.mem_cons, List.not_mem_nil, or_false] at hg
      omega

theorem lt_of_v6 (h : SpellsV6 text groups) : groups.length = 8 ∧ ∀ g ∈ groups, g < 65536 := by
  cases h with
  | full h hlength => exact ⟨hlength, lt_of_end h⟩
  | @compressed first second head tail hfirst hsecond hlength =>
    constructor
    · rw [List.length_append, List.length_append, List.length_replicate]
      omega
    · intro g hg
      rw [List.mem_append, List.mem_append] at hg
      rcases hg with (hg | hg) | hg
      · exact lt_of_end (.groups hfirst) g hg
      · rw [List.eq_of_mem_replicate hg]
        decide
      · exact lt_of_end hsecond g hg

theorem isBlockedIpv4_of_spells (h : SpellsQuad core octets) :
    isBlockedIpv4 core = true ↔ BlockedV4 (ofParts 256 octets) := by
  have hbound := h.bound
  have hlength : octets.length = 4 := by
    obtain ⟨-, -, hlength, -⟩ := h
    exact hlength
  rw [isBlockedIpv4, parseIpv4_of_spells h]
  match octets, hlength with
  | [a, b, c, d], _ =>
    simp only [List.forall_mem_cons] at hbound
    exact isBlockedOctets_iff hbound.1 hbound.2.1 hbound.2.2.1 hbound.2.2.2.1

theorem isBlockedIpv6_of_spells (rest : Text) (h : SpellsV6 core groups)
    (hrest : rest = [] ∨ ∃ zone, rest = 0x25 :: zone) :
    isBlockedIpv6 (core ++ rest) = true ↔ BlockedV6 (ofParts 65536 groups) := by
  obtain ⟨hlength, hlt⟩ := lt_of_v6 h
  rw [isBlockedIpv6, expandIpv6_of_spells h hrest]
  match groups, hlength with
  | [g₀, g₁, g₂, g₃, g₄, g₅, g₆, g₇], _ => exact isBlockedGroups_iff hlt

/-- What has a colon is not read as octets. -/
theorem isBlockedIp_of_colon (h : 0x3A ∈ stripBrackets (trim text)) :
    isBlockedIp text = isBlockedIpv6 (stripBrackets (trim text)) := by
  have hread : parseIpv4 (stripBrackets (trim text)) = none :=
    Option.eq_none_iff_forall_not_mem.mpr fun octets hoctets => colon_not_mem hoctets h
  simp only [isBlockedIp, hread]
  rfl

/-- No other network of version 6 has a mapped address in it. -/
theorem blockedV6_mapped {m : Nat} (hm : m < 2 ^ 32) : BlockedV6 (mapped m) ↔ BlockedV4 m := by
  constructor
  · rintro (⟨net, hnet, hin⟩ | ⟨other, -, hother, hblocked⟩)
    · simp only [networksV6, List.mem_cons, List.not_mem_nil, or_false] at hnet
      simp only [InNetwork, mapped] at hin
      rcases hnet with rfl | rfl | rfl | rfl | rfl <;>
        simp only [ofParts, List.foldl_cons, List.foldl_nil, Nat.reducePow, Nat.reduceMul,
          Nat.reduceAdd, Nat.reduceDiv] at hin <;> omega
    · rw [Nat.add_left_cancel hother]
      exact hblocked
  · exact fun hblocked => .inr ⟨m, hm, rfl, hblocked⟩

theorem isBlockedIp_of_spells {a : Address} (h : Spells text a) :
    isBlockedIp text = true ↔ a.Blocked := by
  cases h with
  | v4 h hvalue hsurrounded =>
    have hread := parseIpv4_of_spells h
    have hstrip := stripBrackets_trim hsurrounded (List.ne_nil_of_mem (SpellsQuad.dot_mem h))
      (isLiteral_of_quad h)
    simp only [isBlockedIp, hstrip, hread]
    rw [Option.isSome_some, if_pos rfl, isBlockedIpv4_of_spells h, hvalue]
    rfl
  | v6 h hvalue hsurrounded =>
    have hcolon := colon_mem_of_v6 h
    have hstrip := stripBrackets_trim hsurrounded (List.ne_nil_of_mem hcolon) (isLiteral_of_v6 h)
    have hgroups := isBlockedIpv6_of_spells [] h (.inl rfl)
    rw [List.append_nil, hvalue] at hgroups
    rw [isBlockedIp_of_colon (hstrip ▸ hcolon), hstrip]
    exact hgroups
  | zone h hvalue hsurrounded =>
    have hcolon := colon_mem_of_v6 h
    obtain ⟨zone', hstrip⟩ := stripBrackets_trim_zone hsurrounded (List.ne_nil_of_mem hcolon)
      (isLiteral_of_v6 h)
    have hmem : 0x3A ∈ stripBrackets (trim text) := hstrip ▸ List.mem_append_left _ hcolon
    rw [isBlockedIp_of_colon hmem, hstrip, isBlockedIpv6_of_spells _ h (.inr ⟨zone', rfl⟩), hvalue]
    rfl

theorem isBlockedIp_congr {other : Text} {a : Address} (h : Spells text a)
    (hother : Spells other a) : isBlockedIp text = isBlockedIp other :=
  Bool.eq_iff_iff.mpr ((isBlockedIp_of_spells h).trans (isBlockedIp_of_spells hother).symm)

/-- **An address is blocked or not, whatever its spelling.**  A mapped address is blocked with the
address of version 4 in it. -/
theorem isBlockedIp_iff {a : Address} (h : Spells text a) :
    (isBlockedIp text = true ↔ a.Blocked) ∧
      ∀ (value : Fin (2 ^ 128)) (m : Nat), a = .v6 value → m < 2 ^ 32 → value.val = mapped m →
        (isBlockedIp text = true ↔ BlockedV4 m) := by
  have hblocked := isBlockedIp_of_spells h
  refine ⟨hblocked, ?_⟩
  rintro value m rfl hm hvalue
  rw [hblocked, Address.Blocked, hvalue, blockedV6_mapped hm]

/-- `::FFFF:127.0.0.1`, with a zone, brackets and white space. -/
def loopbackText : Text :=
  [0x20, 0x5B, 0x3A, 0x3A, 0x46, 0x46, 0x46, 0x46, 0x3A, 0x31, 0x32, 0x37, 0x2E,
    0x30, 0x2E, 0x30, 0x2E, 0x31, 0x25, 0x65, 0x74, 0x68, 0x30, 0x5D, 0x9]

theorem spells_loopbackText : Spells loopbackText (.v6 ⟨mapped 0x7F000001, by decide⟩) := by
  have hgroup : SpellsGroup [0x46, 0x46, 0x46, 0x46] 0xFFFF :=
    ⟨by decide, by decide, by decide, by decide⟩
  have hquad : SpellsQuad [0x31, 0x32, 0x37, 0x2E, 0x30, 0x2E, 0x30, 0x2E, 0x31]
      [127, 0, 0, 1] := by
    refine ⟨[[0x31, 0x32, 0x37], [0x30], [0x30], [0x31]], ?_, rfl, rfl⟩
    refine .cons ?_ (.cons ?_ (.cons ?_ (.cons ?_ .nil))) <;>
      exact ⟨by decide, by decide, by decide, by decide, by decide⟩
  have hcore := SpellsV6.compressed ⟨[], .nil, rfl⟩ (.quad (.cons hgroup .nil) hquad) (by decide)
  have hsurrounded (inner : Text) : Surrounded inner
      ([0x20] ++ (0x5B :: (inner ++ [0x5D])) ++ [0x9]) :=
    .brackets (List.forall_mem_singleton.mpr (by decide))
      (List.forall_mem_singleton.mpr (by decide))
  have hvalue : ofParts 65536 [0, 0, 0, 0, 0, 0xFFFF, 127 * 256 + 0, 0 * 256 + 1] =
      mapped 0x7F000001 := by
    decide
  exact Spells.zone hcore hvalue (hsurrounded (_ ++ 0x25 :: [0x65, 0x74, 0x68, 0x30]))

theorem isBlockedIp_iff_loopbackText : isBlockedIp loopbackText = true ↔ BlockedV4 0x7F000001 :=
  (isBlockedIp_iff spells_loopbackText).2 _ _ rfl (by decide) rfl

/-- Every address has a spelling. -/
theorem exists_spells (a : Address) : ∃ text, Spells text a := by
  cases a with
  | v4 value =>
    have hbound (k : Nat) : value / 256 ^ k % 256 ≤ 255 :=
      Nat.le_of_lt_succ (Nat.mod_lt _ (by decide))
    have hquad := spellsQuad_joinOctets (hbound 3) (hbound 2) (hbound 1) (hbound 0)
    exact ⟨_, .v4 hquad ((ofParts_digits 256 4 value).trans (Nat.mod_eq_of_lt value.isLt))
      (.self _)⟩
  | v6 value =>
    have hgroup (k : Nat) : SpellsGroup (toDigits 16 (value / 65536 ^ k % 65536))
        (value / 65536 ^ k % 65536) := spellsGroup_toDigits (Nat.mod_lt _ (by decide))
    have hfull := SpellsV6.full (.groups ⟨_, .cons (hgroup 7) (.cons (hgroup 6) (.cons (hgroup 5)
      (.cons (hgroup 4) (.cons (hgroup 3) (.cons (hgroup 2) (.cons (hgroup 1)
        (.cons (hgroup 0) .nil))))))), rfl⟩) rfl
    exact ⟨_, .v6 hfull ((ofParts_digits 65536 8 value).trans (Nat.mod_eq_of_lt value.isLt))
      (.self _)⟩

end Filter

end NiffyInsure.Backend.Ssrf
