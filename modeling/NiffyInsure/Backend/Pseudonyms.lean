import NiffyInsure.Lib.Marked
import NiffyInsure.Backend.Anonymization

/-!
# What staging shows of wallets and e-mails

Two runs of the anonymization, over datasets that differ by a renaming of the addresses.  In a
dataset with marks each address, a wallet or an e-mail, is marked where it occurs; the code reads it
without the marks.

* `anonymized_eq`: the rows of a table are what it copies, and its tokens.
* `upToTokens_iff`: the outputs differ by a renaming of the tokens, if the same texts got one token.
* `hidden_iff`: the addresses are hidden, exactly if none occurs in a column that is copied, and
  none is the text that stands for a missing one.
-/

namespace NiffyInsure.Backend.Pseudonyms

open Js Anonymization

/-! ## Datasets with marks -/

/-- A wallet address or an e-mail. -/
abbrev Address := {s : String // s ≠ ""}

abbrev Text := Marked.Text Address

def reading (t : Text) : String := Marked.read Subtype.val t

/-- What the code sees. -/
def readings (data : Dataset Text) : Dataset String :=
  fun table => (data table).map (Row.map reading)

/-- The dataset with the addresses renamed, wherever they occur. -/
def renamed (f : Address → Address) (data : Dataset Text) : Dataset Text := fun table =>
  (data table).map (Row.map (Marked.rename f))

/-- The texts in a column; a number is read as its digits. -/
def cellTexts : Value Text → List Text
  | .number n => [[.plain (toString n)]]
  | v => v.strings

def texts (data : Dataset Text) : Set Text :=
  {t | ∃ table, ∃ row ∈ data table, ∃ c ∈ row, t ∈ cellTexts c.2}

def addresses (data : Dataset Text) : Set Address := {a | ∃ t ∈ texts data, .name a ∈ t}

/-- What reads the same is marked the same: an address is marked wherever it occurs. -/
def Consistent (data : Dataset Text) : Prop := Set.InjOn reading (texts data)

/-! ## Hiding -/

/-- The columns of a table that hold tokens. -/
def tokenNames (table : Table) : List String :=
  ((columns table).filter (·.2 ≠ .copy)).map Prod.fst

def renameTokens (rename : String → String) (table : Table) (row : Row String) : Row String :=
  List.map (fun c => if c.1 ∈ tokenNames table then (c.1, c.2.map rename) else c) row

/-- The outputs are equal up to an injective renaming of the tokens of the first one. -/
def UpToTokens (sha256 : String → String) (data out out' : Dataset String) : Prop :=
  ∃ rename : String → String, Set.InjOn rename (Key.token sha256 '' {key | key ∈ keys data}) ∧
    ∀ table, out' table = (out table).map (renameTokens rename table)

/-- No address occurs in an output. -/
def NoneShown (addresses : Set Address) (out : Dataset String) : Prop :=
  ∀ a ∈ addresses, ∀ table, ∀ row ∈ out table, ∀ c ∈ row, ∀ s ∈ c.2.strings,
    ¬ a.val.toList <:+: s.toList

/-- **The addresses are hidden**: the outputs for two namings are equal up to tokens, and show
none. -/
structure Hidden (sha256 : String → String) (data : Dataset Text)
    (out out' : Dataset String) : Prop where
  alike : UpToTokens sha256 (readings data) out out'
  shown : NoneShown (addresses data) out

/-- What a table copies of a row besides its own columns. -/
def base {α : Type} (table : Table) (row : Row α) : Row α :=
  if table = .policies then List.filter (fun c => c.1 ∉ policyColumns.map Prod.fst) row else []

/-- What a table copies of a row. -/
def copiedCells {α : Type} (table : Table) (row : Row α) : Row α :=
  base table row ++ ((columns table).filter (·.2 = .copy)).map fun c => (c.1, row.get c.1)

/-- No address occurs in what is copied. -/
def CleanCopies (data : Dataset Text) : Prop :=
  ∀ a ∈ addresses data, ∀ table, ∀ row ∈ data table, ∀ c ∈ copiedCells table row, ∀ t ∈ c.2.strings,
    ¬ a.val.toList <:+: (reading t).toList

/-- The text that a rule puts for a missing one. -/
def Rule.fallback : Rule → Option (Anonymization.Kind × String)
  | .emailOr s => some (.email, s)
  | .nameOr s => some (.name, s)
  | _ => none

def textOf : Value Text → Option Text
  | .string t => some t
  | _ => none

def idOf : Value Text → Option Text
  | .string t => some t
  | .number n => some [.plain (toString n)]
  | _ => none

/-- `value || fallback`, for the text that is hashed. -/
def textOr (v : Value Text) (fallback : String) : Option Text :=
  if (v.map reading).truthy then textOf v else some [.plain fallback]

/-- What a rule hashes, with its marks. -/
def source : Rule → Value Text → Option (Anonymization.Kind × Text)
  | .copy, _ => none
  | .wallet, v => (textOf v).map (Prod.mk .wallet)
  | .email, v => (textOf v).map (Prod.mk .email)
  | .emailOr fallback, v => (textOr v fallback).map (Prod.mk .email)
  | .nameOr fallback, v => (textOr v fallback).map (Prod.mk .name)
  | .id, v => (idOf v).map (Prod.mk .id)
  | .purchase, v => (textOf v).map (Prod.mk .purchase)

/-- What is hashed of a dataset, with its marks. -/
def sources (data : Dataset Text) : Set (Anonymization.Kind × Text) :=
  {k | ∃ table, ∃ row ∈ data table, ∃ c ∈ columns table, source c.2 (row.get c.1) = some k}

/-- No address is renamed to or from the text that is put for a missing one. -/
def MissingApart (f : Address → Address) (data : Dataset Text) : Prop :=
  ∀ table, ∀ row ∈ data table, ∀ c ∈ columns table, ∀ kind s, Rule.fallback c.2 = some (kind, s) →
    ((row.get c.1).map reading).truthy = false → ∀ t, (kind, t) ∈ sources data →
      (reading t = s ↔ reading (Marked.rename f t) = s)

/-! ## Reading and renaming -/

section Sources

variable {f : Address → Address} {data : Dataset Text} {v : Value Text} {rule : Rule}
  {kind : Anonymization.Kind} {t : Text}

/-- The key of what is hashed. -/
def keyOf (k : Anonymization.Kind × Text) : Key := ⟨k.1, reading k.2⟩

theorem asString_map_reading (v : Value Text) :
    asString (v.map reading) = (textOf v).map reading := by
  cases v <;> rfl

theorem asString_orElse (v : Value Text) (s : String) :
    asString (orElse (v.map reading) s) = (textOr v s).map reading := by
  unfold orElse textOr
  split
  · exact asString_map_reading v
  · exact congrArg some (Marked.read_plain s).symm

theorem idText_map_reading (v : Value Text) : idText (v.map reading) = (idOf v).map reading := by
  cases v with
  | number n => exact congrArg some (Marked.read_plain _).symm
  | _ => rfl

theorem key_map_reading (rule : Rule) (v : Value Text) :
    rule.key (v.map reading) = (source rule v).map keyOf := by
  cases rule <;>
    simp only [Rule.key, source, asString_map_reading, asString_orElse, idText_map_reading,
      Option.map_map, Option.map_none] <;> rfl

theorem truthy_rename (v : Value Text) :
    ((v.map (Marked.rename f)).map reading).truthy = (v.map reading).truthy := by
  cases v with
  | string t =>
    refine decide_eq_decide.mpr (not_congr ?_)
    exact Marked.read_rename_eq_empty_iff fun a => a.2
  | _ => rfl

theorem textOf_rename (v : Value Text) :
    textOf (v.map (Marked.rename f)) = (textOf v).map (Marked.rename f) := by
  cases v <;> rfl

theorem textOr_rename (v : Value Text) (s : String) :
    textOr (v.map (Marked.rename f)) s = (textOr v s).map (Marked.rename f) := by
  unfold textOr
  rw [truthy_rename]
  split
  · exact textOf_rename v
  · rfl

theorem idOf_rename (v : Value Text) : idOf (v.map (Marked.rename f)) =
    (idOf v).map (Marked.rename f) := by
  cases v <;> rfl

theorem source_rename (rule : Rule) (v : Value Text) :
    source rule (v.map (Marked.rename f)) =
      (source rule v).map fun k => (k.1, Marked.rename f k.2) := by
  cases rule <;>
    simp only [source, textOf_rename, textOr_rename, idOf_rename, Option.map_map,
      Option.map_none] <;> rfl

/-- What is hashed is a text of the column, or the text that is put for a missing one. -/
theorem source_cases (h : source rule v = some (kind, t)) :
    t ∈ cellTexts v ∨ ∃ s, Rule.fallback rule = some (kind, s) ∧ (v.map reading).truthy = false ∧
      t = [.plain s] := by
  have htext {v : Value Text} (h : textOf v = some t) : t ∈ cellTexts v := by
    cases v <;> cases h
    exact List.mem_singleton.mpr rfl
  have hor {s : String} (h : textOr v s = some t) :
      t ∈ cellTexts v ∨ ((v.map reading).truthy = false ∧ t = [.plain s]) := by
    unfold textOr at h
    split at h
    · exact .inl (htext h)
    · rename_i hfalsy
      exact .inr ⟨Bool.not_eq_true _ ▸ hfalsy, (Option.some_inj.mp h).symm⟩
  cases rule with
  | copy => cases h
  | wallet | email | purchase =>
    obtain ⟨t', ht, heq⟩ := Option.map_eq_some_iff.mp h
    cases heq
    exact .inl (htext ht)
  | emailOr s | nameOr s =>
    obtain ⟨t', ht, heq⟩ := Option.map_eq_some_iff.mp h
    cases heq
    exact (hor ht).imp_right fun h => ⟨s, rfl, h⟩
  | id =>
    obtain ⟨t', ht, heq⟩ := Option.map_eq_some_iff.mp h
    cases heq
    refine .inl ?_
    cases v <;> cases ht <;> exact List.mem_singleton.mpr rfl

end Sources

/-! ## The tokens of two runs -/

section Runs

variable {sha256 : String → String} {f : Address → Address} {data : Dataset Text} {table : Table}
  {row : Row Text}

/-- What is hashed, with the addresses renamed. -/
def renamedSource (f : Address → Address) (k : Anonymization.Kind × Text) :
    Anonymization.Kind × Text := (k.1, Marked.rename f k.2)

theorem cellTexts_rename {v : Value Text} {t : Text} (h : t ∈ cellTexts v) :
    Marked.rename f t ∈ cellTexts (v.map (Marked.rename f)) := by
  cases v with
  | number n =>
    obtain rfl := List.mem_singleton.mp h
    exact List.mem_singleton.mpr rfl
  | string t' =>
    obtain rfl := List.mem_singleton.mp h
    exact List.mem_singleton.mpr rfl
  | property key value rest =>
    have hmap : cellTexts ((Value.property key value rest).map (Marked.rename f)) =
        (Value.property key value rest).strings.map (Marked.rename f) := Value.strings_map _ _
    rw [hmap]
    exact List.mem_map_of_mem h
  | _ => cases h

theorem mem_texts_renamed {t : Text} (h : t ∈ texts data) :
    Marked.rename f t ∈ texts (renamed f data) := by
  obtain ⟨table, row, hrow, c, hc, ht⟩ := h
  exact ⟨table, _, List.mem_map_of_mem hrow, _, List.mem_map_of_mem hc, cellTexts_rename ht⟩

theorem mem_texts_of_get (hrow : row ∈ data table) {name : String} {t : Text}
    (ht : t ∈ cellTexts (row.get name)) : t ∈ texts data := by
  rcases row.get_mem name with hget | hget
  · rw [hget] at ht
    cases ht
  · exact ⟨table, row, hrow, _, hget, ht⟩

theorem mem_sources_renamed {k : Anonymization.Kind × Text} (h : k ∈ sources data) :
    renamedSource f k ∈ sources (renamed f data) := by
  obtain ⟨table, row, hrow, c, hc, hk⟩ := h
  refine ⟨table, _, List.mem_map_of_mem hrow, c, hc, ?_⟩
  rw [Row.get_map, source_rename, hk]
  rfl

theorem mem_keys_readings {key : Key} :
    key ∈ keys (readings data) ↔ ∃ k ∈ sources data, keyOf k = key := by
  rw [mem_keys]
  constructor
  · rintro ⟨table, _, hread, c, hc, hkey⟩
    obtain ⟨row, hrow, rfl⟩ := List.mem_map.mp hread
    rw [Row.get_map, key_map_reading] at hkey
    obtain ⟨k, hk, heq⟩ := Option.map_eq_some_iff.mp hkey
    exact ⟨k, ⟨table, row, hrow, c, hc, hk⟩, heq⟩
  · rintro ⟨k, ⟨table, row, hrow, c, hc, hk⟩, rfl⟩
    refine ⟨table, _, List.mem_map_of_mem hrow, c, hc, ?_⟩
    rw [Row.get_map, key_map_reading, hk]
    rfl

theorem fits_map_reading (rule : Rule) (v : Value Text) :
    rule.fits (v.map reading) = (rule = .copy || (source rule v).isSome) := by
  rw [Rule.fits, key_map_reading, Option.isSome_map]

theorem fits_renamed (hfits : Fits (readings data)) : Fits (readings (renamed f data)) := by
  intro table _ hread c hc
  obtain ⟨_, hrenamed, rfl⟩ := List.mem_map.mp hread
  obtain ⟨row, hrow, rfl⟩ := List.mem_map.mp hrenamed
  have hfit := hfits table _ (List.mem_map_of_mem hrow) c hc
  rw [Row.get_map, fits_map_reading] at hfit
  rwa [Row.get_map, Row.get_map, fits_map_reading, source_rename, Option.isSome_map]

/-- **The rows of a table** are what it copies, and its tokens. -/
theorem anonymized_eq (table : Table) (row : Row String) :
    anonymized sha256 table row = base table row ++ built sha256 (columns table) row := by
  unfold anonymized base
  split
  · rename_i hpolicies
    subst hpolicies
    rw [Row.spread, built, List.map_map]
    rfl
  · rfl

theorem base_map {α β : Type} (g : α → β) (table : Table) (row : Row α) :
    base table (row.map g) = (base table row).map g := by
  unfold base
  split
  · rw [Row.map, List.filter_map]
    rfl
  · rfl

theorem not_mem_tokenNames_of_copy (table : Table) :
    ∀ c ∈ columns table, c.2 = .copy → c.1 ∉ tokenNames table := by
  cases table <;> decide

theorem not_mem_tokenNames_of_base {α : Type} {row : Row α} {c : String × Value α}
    (hc : c ∈ base table row) : c.1 ∉ tokenNames table := by
  unfold base at hc
  split at hc
  · rename_i hpolicies
    subst hpolicies
    exact of_decide_eq_true (List.mem_filter.mp hc).2
  · cases hc

theorem mem_tokenNames {c : String × Rule} (hc : c ∈ columns table) (hne : c.2 ≠ .copy) :
    c.1 ∈ tokenNames table :=
  List.mem_map_of_mem (List.mem_filter.mpr ⟨hc, decide_eq_true hne⟩)

theorem result_of_source {rule : Rule} {v : Value Text} {k : Anonymization.Kind × Text}
    (h : source rule v = some k) :
    rule.result sha256 (v.map reading) = .string ((keyOf k).token sha256) := by
  rw [Rule.result, key_map_reading, h]
  rfl

/-- Where the copied columns stay as they are, the output for a row is renamed exactly if its tokens
are. -/
theorem row_renamed_iff (hrow : ∀ c ∈ columns table, c.2.fits ((row.get c.1).map reading) = true)
    (hcopies : ∀ c ∈ copiedCells table row, c.2.map (Marked.rename f) = c.2)
    (rename : String → String) :
    anonymized sha256 table ((row.map (Marked.rename f)).map reading) =
        renameTokens rename table (anonymized sha256 table (row.map reading)) ↔
      ∀ c ∈ columns table, ∀ k, source c.2 (row.get c.1) = some k →
        (keyOf (renamedSource f k)).token sha256 = rename ((keyOf k).token sha256) := by
  have hbase : (base table ((row.map (Marked.rename f)).map reading)) =
      renameTokens rename table (base table (row.map reading)) := by
    rw [base_map, base_map, base_map, renameTokens, Row.map, Row.map, Row.map,
      List.map_map, List.map_map]
    refine List.map_congr_left fun c hc => ?_
    have hsame := hcopies c (List.mem_append_left _ hc)
    dsimp only [Function.comp]
    rw [if_neg (not_mem_tokenNames_of_base hc), hsame]
  rw [anonymized_eq, anonymized_eq, hbase]
  rw [show ∀ l l' : Row String, renameTokens rename table (l ++ l') =
    renameTokens rename table l ++ renameTokens rename table l' from fun l l' => List.map_append]
  rw [List.append_cancel_left_eq, built, built, renameTokens, List.map_map, List.map_inj_left]
  refine forall₂_congr fun c hc => ?_
  have hfit := hrow c hc
  rw [fits_map_reading] at hfit
  dsimp only [Function.comp]
  rw [Row.get_map, Row.get_map, Row.get_map]
  by_cases hcopy : c.2 = .copy
  · have hcell : (c.1, row.get c.1) ∈ copiedCells table row := List.mem_append_right _
      (List.mem_map.mpr ⟨c, List.mem_filter.mpr ⟨hc, decide_eq_true hcopy⟩, rfl⟩)
    rw [if_neg (not_mem_tokenNames_of_copy table c hc hcopy), hcopies _ hcell, hcopy]
    exact iff_of_true rfl nofun
  · obtain ⟨k, hk⟩ : ∃ k, source c.2 (row.get c.1) = some k := by
      simpa [hcopy, Option.isSome_iff_exists] using hfit
    have hk' : source c.2 ((row.get c.1).map (Marked.rename f)) = some (renamedSource f k) := by
      rw [source_rename, hk]
      rfl
    rw [if_pos (mem_tokenNames hc hcopy), result_of_source hk, result_of_source hk', hk]
    simp only [Value.map, Prod.mk.injEq, true_and, Value.string.injEq, Option.some.injEq,
      forall_eq']

/-- What the tables come to, for the renamed addresses. -/
def outputs (sha256 : String → String) (data : Dataset Text) : Dataset String := fun table =>
  (readings data table).map (anonymized sha256 table)

/-- **When the outputs are equal up to tokens**, where the copied columns stay as they are. -/
theorem upToTokens_iff (hfits : Fits (readings data))
    (hcopies : ∀ table, ∀ row ∈ data table, ∀ c ∈ copiedCells table row,
      c.2.map (Marked.rename f) = c.2) :
    UpToTokens sha256 (readings data) (outputs sha256 data) (outputs sha256 (renamed f data)) ↔
      ∀ k ∈ sources data, ∀ k' ∈ sources data,
        ((keyOf k).token sha256 = (keyOf k').token sha256 ↔
          (keyOf (renamedSource f k)).token sha256 =
          (keyOf (renamedSource f k')).token sha256) := by
  rw [← Renaming.exists_iff (f := fun k => (keyOf k).token sha256)
    (g := fun k => (keyOf (renamedSource f k)).token sha256)]
  refine exists_congr fun rename => and_congr (Eq.to_iff (congrArg _ ?_)) ?_
  · ext token
    constructor
    · rintro ⟨key, hkey, rfl⟩
      obtain ⟨k, hk, rfl⟩ := mem_keys_readings.mp hkey
      exact ⟨k, hk, rfl⟩
    · rintro ⟨k, hk, rfl⟩
      exact ⟨keyOf k, mem_keys_readings.mpr ⟨k, hk, rfl⟩, rfl⟩
  · have hrow (table : Table) : outputs sha256 (renamed f data) table =
        (outputs sha256 data table).map (renameTokens rename table) ↔
        ∀ row ∈ data table, ∀ c ∈ columns table, ∀ k, source c.2 (row.get c.1) = some k →
          (keyOf (renamedSource f k)).token sha256 = rename ((keyOf k).token sha256) := by
      unfold outputs readings renamed
      rw [List.map_map, List.map_map, List.map_map, List.map_map, List.map_inj_left]
      refine forall₂_congr fun row hrow => ?_
      refine row_renamed_iff (fun c hc => ?_) (hcopies table row hrow) rename
      have hfit := hfits table _ (List.mem_map_of_mem hrow) c hc
      rwa [Row.get_map] at hfit
    simp only [hrow]
    constructor
    · rintro h k ⟨table, row, hrow, c, hc, hk⟩
      exact h table row hrow c hc k hk
    · intro h table row hrow c hc k hk
      exact h k ⟨table, row, hrow, c, hc, hk⟩

/-! ## When the addresses are hidden -/

theorem mem_cellTexts_of_strings {v : Value Text} {t : Text} (h : t ∈ v.strings) :
    t ∈ cellTexts v := by
  cases v with
  | number n => cases h
  | _ => exact h

theorem mem_texts_of_copied (hrow : row ∈ data table) {c : String × Value Text}
    (hc : c ∈ copiedCells table row) {t : Text} (ht : t ∈ c.2.strings) : t ∈ texts data := by
  have hcell := mem_cellTexts_of_strings ht
  rcases List.mem_append.mp hc with hc | hc
  · refine ⟨table, row, hrow, c, ?_, hcell⟩
    unfold base at hc
    split at hc
    · exact (List.mem_filter.mp hc).1
    · cases hc
  · obtain ⟨column, -, rfl⟩ := List.mem_map.mp hc
    exact mem_texts_of_get hrow hcell

/-- A column of an output is copied, or it is a token. -/
theorem mem_anonymized_iff (hrow : ∀ c ∈ columns table, c.2.fits ((row.get c.1).map reading) = true)
    {c : String × Value String} : c ∈ anonymized sha256 table (row.map reading) ↔
      (∃ c' ∈ copiedCells table row, c = (c'.1, c'.2.map reading)) ∨
        ∃ column ∈ columns table, ∃ k, source column.2 (row.get column.1) = some k ∧
          c = (column.1, .string ((keyOf k).token sha256)) := by
  rw [anonymized_eq, base_map, List.mem_append]
  constructor
  · rintro (hc | hc)
    · obtain ⟨c', hc', rfl⟩ := List.mem_map.mp hc
      exact .inl ⟨c', List.mem_append_left _ hc', rfl⟩
    · obtain ⟨column, hcolumn, rfl⟩ := List.mem_map.mp hc
      have hfit := hrow column hcolumn
      rw [fits_map_reading] at hfit
      by_cases hcopy : column.2 = .copy
      · refine .inl ⟨(column.1, row.get column.1), List.mem_append_right _ (List.mem_map.mpr
          ⟨column, List.mem_filter.mpr ⟨hcolumn, decide_eq_true hcopy⟩, rfl⟩), ?_⟩
        rw [Row.get_map, hcopy]
        rfl
      · obtain ⟨k, hk⟩ : ∃ k, source column.2 (row.get column.1) = some k := by
          simpa [hcopy, Option.isSome_iff_exists] using hfit
        exact .inr ⟨column, hcolumn, k, hk, by rw [Row.get_map, result_of_source hk]⟩
  · rintro (⟨c', hc', rfl⟩ | ⟨column, hcolumn, k, hk, rfl⟩)
    · rcases List.mem_append.mp hc' with hc' | hc'
      · exact .inl (List.mem_map_of_mem hc')
      · obtain ⟨column, hcolumn, rfl⟩ := List.mem_map.mp hc'
        obtain ⟨hmem, hcopy⟩ := List.mem_filter.mp hcolumn
        refine .inr (List.mem_map.mpr ⟨column, hmem, ?_⟩)
        rw [Row.get_map, of_decide_eq_true hcopy]
        rfl
    · exact .inr (List.mem_map.mpr ⟨column, hcolumn, by rw [Row.get_map, result_of_source hk]⟩)

/-- No address is shown, exactly if none is copied; the tokens show none. -/
theorem noneShown_iff (hfits : Fits (readings data)) (hunseen : ∀ key ∈ keys (readings data),
    ∀ a ∈ addresses data, ¬ a.val.toList <:+: (key.token sha256).toList) :
    NoneShown (addresses data) (outputs sha256 data) ↔ CleanCopies data := by
  have hrow (table : Table) (row : Row Text) (hmem : row ∈ data table) :
      ∀ c ∈ columns table, c.2.fits ((row.get c.1).map reading) = true := fun c hc => by
    have hfit := hfits table _ (List.mem_map_of_mem hmem) c hc
    rwa [Row.get_map] at hfit
  constructor
  · intro hnone a ha table row hmem c hc t ht
    refine hnone a ha table _ (List.mem_map_of_mem (List.mem_map_of_mem hmem))
      (c.1, c.2.map reading)
      ((mem_anonymized_iff (hrow table row hmem)).mpr (.inl ⟨c, hc, rfl⟩)) (reading t) ?_
    rw [Value.strings_map]
    exact List.mem_map_of_mem ht
  · intro hclean a ha table out hout c hc s hs
    obtain ⟨_, hread, rfl⟩ := List.mem_map.mp hout
    obtain ⟨row, hmem, rfl⟩ := List.mem_map.mp hread
    rcases (mem_anonymized_iff (hrow table row hmem)).mp hc with
      ⟨c', hc', rfl⟩ | ⟨column, hcolumn, k, hk, rfl⟩
    · rw [Value.strings_map] at hs
      obtain ⟨t, ht, rfl⟩ := List.mem_map.mp hs
      exact hclean a ha table row hmem c' hc' t ht
    · obtain rfl := List.mem_singleton.mp hs
      exact hunseen _ (mem_keys_readings.mpr ⟨k, ⟨table, row, hmem, column, hcolumn, hk⟩, rfl⟩) a ha

/-- What is copied has no addresses to rename. -/
theorem copies_kept (hclean : CleanCopies data) :
    ∀ table, ∀ row ∈ data table, ∀ c ∈ copiedCells table row, c.2.map (Marked.rename f) = c.2 := by
  intro table row hrow c hc
  refine Value.map_eq_self fun t ht => Marked.rename_eq_self fun a ha => ?_
  exact hclean a ⟨t, mem_texts_of_copied hrow hc ht, ha⟩ table row hrow c hc t ht
    (Marked.infix_of_mem ha)

theorem source_of_missing {rule : Rule} {v : Value Text} {kind : Anonymization.Kind} {s : String}
    (hfallback : Rule.fallback rule = some (kind, s)) (hmissing : (v.map reading).truthy = false) :
    source rule v = some (kind, [.plain s]) := by
  cases rule with
  | emailOr s' | nameOr s' =>
    cases hfallback
    rw [source, textOr, hmissing]
    rfl
  | _ => cases hfallback

/-- The same things are hashed before and after, exactly if the texts for missing ones stay
apart. -/
theorem sources_alike_iff (hf : Function.Injective f) (hmarks : Consistent data)
    (hmarks' : Consistent (renamed f data)) :
    (∀ k ∈ sources data, ∀ k' ∈ sources data,
        (keyOf k = keyOf k' ↔ keyOf (renamedSource f k) = keyOf (renamedSource f k'))) ↔
      MissingApart f data := by
  have hkey (k k' : Anonymization.Kind × Text) :
      keyOf k = keyOf k' ↔ k.1 = k'.1 ∧ reading k.2 = reading k'.2 := by
    rw [keyOf, keyOf, Key.mk.injEq]
  constructor
  · intro h table row hrow c hc kind s hfallback hmissing t ht
    have hput : (kind, [Marked.Piece.plain s]) ∈ sources data :=
      ⟨table, row, hrow, c, hc, source_of_missing hfallback hmissing⟩
    have hiff := h _ ht _ hput
    simpa only [hkey, renamedSource, true_and, reading, Marked.rename_plain,
      Marked.read_plain] using hiff
  · rintro hapart ⟨kind, t⟩ hk ⟨kind', t'⟩ hk'
    rw [hkey, hkey]
    refine and_congr_right fun heq => ?_
    change kind = kind' at heq
    subst heq
    obtain ⟨table, row, hrow, c, hc, hsource⟩ := id hk
    obtain ⟨table', row', hrow', c', hc', hsource'⟩ := id hk'
    rcases source_cases hsource with ht | ⟨s, hfallback, hmissing, rfl⟩
    · rcases source_cases hsource' with ht' | ⟨s, hfallback, hmissing, rfl⟩
      · have hmem := mem_texts_of_get hrow ht
        have hmem' := mem_texts_of_get hrow' ht'
        exact (hmarks.eq_iff hmem hmem').trans ((Marked.rename_injective hf).eq_iff.symm.trans
          (hmarks'.eq_iff (mem_texts_renamed hmem) (mem_texts_renamed hmem')).symm)
      · have hiff := hapart table' row' hrow' c' hc' kind s hfallback hmissing t hk
        simpa only [renamedSource, reading, Marked.rename_plain, Marked.read_plain] using hiff
    · have hiff := hapart table row hrow c hc kind s hfallback hmissing t' hk'
      simpa only [renamedSource, reading, Marked.rename_plain, Marked.read_plain, eq_comm]
        using hiff

/-- **When the addresses are hidden**, for two datasets that differ by a renaming: no address occurs
in a column that is copied, and none is renamed to or from the text that is put for a missing
one. -/
theorem hidden_iff (hfits : Fits (readings data)) (hf : Function.Injective f)
    (hmarks : Consistent data)
    (hmarks' : Consistent (renamed f data)) (hhash : CollisionFree sha256 (keys (readings data)))
    (hhash' : CollisionFree sha256 (keys (readings (renamed f data))))
    (hunseen : ∀ key ∈ keys (readings data), ∀ a ∈ addresses data,
      ¬ a.val.toList <:+: (key.token sha256).toList)
    {order : List Table} (horder : ∀ table, table ∈ order) :
    ∃ out ctx out' ctx',
      (anonymizeAll sha256 (readings data) order).run createAnonymizationContext = .ok (out, ctx) ∧
      (anonymizeAll sha256 (readings (renamed f data)) order).run createAnonymizationContext =
        .ok (out', ctx') ∧
      (Hidden sha256 data out out' ↔ CleanCopies data ∧ MissingApart f data) := by
  obtain ⟨ctx, hrun⟩ := anonymizeAll_eq sha256 hfits horder
  obtain ⟨ctx', hrun'⟩ := anonymizeAll_eq sha256 (fits_renamed (f := f) hfits) horder
  refine ⟨_, ctx, _, ctx', hrun, hrun', ?_⟩
  have htoken : ∀ k ∈ sources data, ∀ k' ∈ sources data,
      (keyOf k).token sha256 = (keyOf k').token sha256 ↔ keyOf k = keyOf k' := fun k hk k' hk' =>
    ⟨hhash _ (mem_keys_readings.mpr ⟨k, hk, rfl⟩) _ (mem_keys_readings.mpr ⟨k', hk', rfl⟩),
      congrArg _⟩
  have htoken' : ∀ k ∈ sources data, ∀ k' ∈ sources data,
      (keyOf (renamedSource f k)).token sha256 = (keyOf (renamedSource f k')).token sha256 ↔
        keyOf (renamedSource f k) = keyOf (renamedSource f k') := fun k hk k' hk' =>
    ⟨hhash' _ (mem_keys_readings.mpr ⟨_, mem_sources_renamed hk, rfl⟩) _
      (mem_keys_readings.mpr ⟨_, mem_sources_renamed hk', rfl⟩), congrArg _⟩
  have halike (hclean : CleanCopies data) : UpToTokens sha256 (readings data) (outputs sha256 data)
      (outputs sha256 (renamed f data)) ↔ MissingApart f data := by
    rw [upToTokens_iff hfits (copies_kept hclean), ← sources_alike_iff hf hmarks hmarks']
    refine forall₂_congr fun k hk => forall₂_congr fun k' hk' => ?_
    rw [htoken k hk k' hk', htoken' k hk k' hk']
  have hshown := noneShown_iff hfits hunseen
  constructor
  · intro h
    have hclean := hshown.mp h.shown
    exact ⟨hclean, (halike hclean).mp h.alike⟩
  · rintro ⟨hclean, hapart⟩
    exact ⟨(halike hclean).mpr hapart, hshown.mpr hclean⟩

end Runs

/-! ## A notification of a policy -/

def wallet : Address := ⟨demoWallet, by decide⟩

def mail : Address := ⟨"alice@example.com", by decide⟩

def otherWallet : Address := ⟨"GBXYZ5XPGFBFN2XYOJSZ4K6SSWJG3CQFBFPXJNZGYK4KF6HYJQ7XYAAA", by decide⟩

/-- The digests of what is hashed below. -/
def pseudonymSha256 (text : String) : String :=
  if text = otherWallet.val then "63d60c146ff1715cae12a3f6a66d88e4a6bb12fdf33447fa9553c82c977c9f9e"
  else if text = otherWallet.val ++ ":7" then
    "4292adf5e81e76c45484c33f8ca949ec3e2f08bfc50c4c46a64ec4bb1d372c01"
  else demoSha256 text

/-- A policy, its claim and the profile of its holder. -/
def profileData : Dataset Text
  | .policies => [[("id", .string [.name wallet, .plain ":7"]), ("policyId", .number 7),
      ("holderAddress", .string [.name wallet]), ("region", .string [.plain "US"])]]
  | .claims => [[("id", .number 5), ("policyId", .string [.name wallet, .plain ":7"]),
      ("creatorAddress", .string [.name wallet]), ("amount", .string [.plain "1000"])]]
  | .holderProfiles => [[("walletAddress", .string [.name wallet]),
      ("displayName", .string [.plain "Alice Smith"]), ("email", .string [.name mail])]]
  | _ => []

/-- A notification whose payload has the id of a policy. -/
def notifiedData : Dataset Text
  | .notifications => [[("id", .string [.plain "n-1"]), ("userId", .string [.name wallet]),
      ("payload", .property [.plain "recordId"] (.string [.name wallet, .plain ":7"]) .empty)]]
  | _ => []

/-- The holder has the other wallet. -/
def swapped : Address → Address := Equiv.swap wallet otherWallet

def textList (data : Dataset Text) : List Text :=
  Table.all.flatMap fun table => (data table).flatMap fun row => row.flatMap fun c => cellTexts c.2

def addressList (data : Dataset Text) : List Address :=
  (textList data).flatMap fun t => t.filterMap fun p =>
    match p with
    | .plain _ => none
    | .name a => some a

theorem mem_textList {data : Dataset Text} {t : Text} : t ∈ textList data ↔ t ∈ texts data := by
  simp only [textList, List.mem_flatMap, Table.mem_all, true_and, texts, Set.mem_ofPred_eq]

theorem mem_addressList {data : Dataset Text} {a : Address} :
    a ∈ addressList data ↔ a ∈ addresses data := by
  simp only [addressList, List.mem_flatMap, mem_textList, List.mem_filterMap, addresses,
    Set.mem_ofPred_eq]
  refine exists_congr fun t => and_congr_right fun _ => ?_
  constructor
  · rintro ⟨p, hp, hname⟩
    cases p with
    | plain s => cases hname
    | name a' => exact Option.some_inj.mp hname ▸ hp
  · exact fun h => ⟨_, h, rfl⟩

instance (data : Dataset Text) : Decidable (Consistent data) :=
  decidable_of_iff (∀ t ∈ textList data, ∀ t' ∈ textList data, reading t = reading t' → t = t')
    ⟨fun h _ ht _ ht' => h _ (mem_textList.mpr ht) _ (mem_textList.mpr ht'),
      fun h _ ht _ ht' => h (mem_textList.mp ht) (mem_textList.mp ht')⟩

/-- None of the addresses occurs in the texts. -/
def noneOccurs (l : List Address) (texts : List String) : Bool :=
  l.all fun a => texts.all fun s => !decide (a.val.toList <:+: s.toList)

theorem not_infix_of_noneOccurs {data : Dataset Text} {l : List Address}
    (hl : ∀ a ∈ addressList data, a ∈ l) {texts : List String} (h : noneOccurs l texts = true)
    {a : Address} (ha : a ∈ addresses data) {s : String} (hs : s ∈ texts) :
    ¬ a.val.toList <:+: s.toList := by
  have hall := List.all_eq_true.mp (List.all_eq_true.mp h a (hl a (mem_addressList.mpr ha))) s hs
  simpa using hall

theorem unseen_of_noneOccurs {data : Dataset Text} {sha256 : String → String} {l : List Address}
    (hl : ∀ a ∈ addressList data, a ∈ l) {ks : List Key}
    (hks : ∀ key ∈ keys (readings data), key ∈ ks)
    (h : noneOccurs l (ks.map (Key.token sha256)) = true) :
    ∀ key ∈ keys (readings data), ∀ a ∈ addresses data, ¬ a.val.toList <:+:
      (key.token sha256).toList :=
  fun key hkey _ ha => not_infix_of_noneOccurs hl h ha (List.mem_map_of_mem (hks key hkey))

/-- What is copied of a dataset. -/
def copiedStrings (data : Dataset Text) : List String :=
  Table.all.flatMap fun table => (data table).flatMap fun row =>
    (copiedCells table row).flatMap fun c => c.2.strings.map reading

theorem cleanCopies_of_noneOccurs {data : Dataset Text} {l : List Address}
    (hl : ∀ a ∈ addressList data, a ∈ l) (h : noneOccurs l (copiedStrings data) = true) :
    CleanCopies data := by
  intro a ha table row hrow c hc t ht
  refine not_infix_of_noneOccurs hl h ha ?_
  simp only [copiedStrings, List.mem_flatMap]
  exact ⟨table, table.mem_all, row, hrow, c, hc, List.mem_map_of_mem ht⟩

/-- What the texts for missing ones are put for. -/
def missing (data : Dataset Text) : List (Anonymization.Kind × String) :=
  Table.all.flatMap fun table => (data table).flatMap fun row => (columns table).filterMap fun c =>
    if ((row.get c.1).map reading).truthy then none else Rule.fallback c.2

theorem missingApart_of_nil {data : Dataset Text} {f : Address → Address} (h : missing data = []) :
    MissingApart f data := by
  intro table row hrow c hc kind s hfallback hmissing
  have hmem : (kind, s) ∈ missing data := by
    simp only [missing, List.mem_flatMap, List.mem_filterMap]
    refine ⟨table, table.mem_all, row, hrow, c, hc, ?_⟩
    rw [hmissing]
    exact hfallback
  rw [h] at hmem
  cases hmem

def swappedKeys : List Key :=
  [⟨.id, otherWallet.val ++ ":7"⟩, ⟨.wallet, otherWallet.val⟩, ⟨.name, "Alice Smith"⟩,
    ⟨.email, "alice@example.com"⟩]

/-- The other wallet gets other tokens, and nothing else changes. -/
theorem hidden_iff_swapped : ∃ out ctx out' ctx',
    (anonymizeAll pseudonymSha256 (readings profileData) Table.all).run createAnonymizationContext =
      .ok (out, ctx) ∧
    (anonymizeAll pseudonymSha256 (readings (renamed swapped profileData)) Table.all).run
      createAnonymizationContext = .ok (out', ctx') ∧
    Hidden pseudonymSha256 profileData out out' := by
  have haddresses : ∀ a ∈ addressList profileData, a ∈ [wallet, mail] := by decide +kernel
  have hkeys : ∀ key ∈ keys (readings profileData), key ∈ demoKeys := by decide +kernel
  have htokens : noneOccurs [wallet, mail] (demoKeys.map (Key.token pseudonymSha256)) = true := by
    decide +kernel
  have hhash : CollisionFree pseudonymSha256 (keys (readings profileData)) :=
    collisionFree_of_mem hkeys (by decide)
  have hhash' : CollisionFree pseudonymSha256 (keys (readings (renamed swapped profileData))) :=
    collisionFree_of_mem (l := swappedKeys) (by decide +kernel) (by decide)
  obtain ⟨out, ctx, out', ctx', hrun, hrun', hiff⟩ := hidden_iff (by decide +kernel)
    (Equiv.swap wallet otherWallet).injective (by decide +kernel) (by decide +kernel) hhash hhash'
    (unseen_of_noneOccurs haddresses hkeys htokens) Table.mem_all
  refine ⟨out, ctx, out', ctx', hrun, hrun', hiff.mpr ⟨?_, ?_⟩⟩
  · exact cleanCopies_of_noneOccurs haddresses (by decide +kernel)
  · exact missingApart_of_nil (by decide +kernel)

/-- The payload of a notification shows the wallet. -/
theorem not_hidden : ¬ ∀ (sha256 : String → String) (f : Address → Address) (data : Dataset Text)
    (order : List Table), Fits (readings data) → Function.Injective f → Consistent data →
      Consistent (renamed f data) → CollisionFree sha256 (keys (readings data)) →
      CollisionFree sha256 (keys (readings (renamed f data))) →
      (∀ key ∈ keys (readings data), ∀ a ∈ addresses data,
        ¬ a.val.toList <:+: (key.token sha256).toList) → (∀ table, table ∈ order) →
      ∀ out ctx out' ctx',
        (anonymizeAll sha256 (readings data) order).run createAnonymizationContext =
        .ok (out, ctx) →
        (anonymizeAll sha256 (readings (renamed f data)) order).run createAnonymizationContext =
          .ok (out', ctx') → Hidden sha256 data out out' := by
  intro h
  have hfits : Fits (readings notifiedData) := by decide +kernel
  have hkeys : ∀ key ∈ keys (readings notifiedData), key ∈ [⟨.wallet, demoWallet⟩] := by
    decide +kernel
  have hkeys' : ∀ key ∈ keys (readings (renamed swapped notifiedData)),
      key ∈ [⟨.wallet, otherWallet.val⟩] := by
    decide +kernel
  have hunseen : ∀ key ∈ keys (readings notifiedData), ∀ a ∈ addresses notifiedData,
      ¬ a.val.toList <:+: (key.token pseudonymSha256).toList :=
    unseen_of_noneOccurs (l := [wallet]) (by decide +kernel) hkeys (by decide +kernel)
  obtain ⟨ctx, hrun⟩ := anonymizeAll_eq pseudonymSha256 hfits Table.mem_all
  obtain ⟨ctx', hrun'⟩ := anonymizeAll_eq pseudonymSha256 (fits_renamed (f := swapped) hfits)
    Table.mem_all
  have hhidden := h pseudonymSha256 swapped notifiedData Table.all hfits
    (Equiv.swap wallet otherWallet).injective (by decide +kernel) (by decide +kernel)
    (collisionFree_of_mem hkeys (List.pairwise_singleton _ _))
    (collisionFree_of_mem hkeys' (List.pairwise_singleton _ _)) hunseen Table.mem_all _ ctx _
      ctx' hrun hrun'
  have hclean := (noneShown_iff hfits hunseen).mp hhidden.shown
  have hcopied : ∃ table, ∃ row ∈ notifiedData table, ∃ c ∈ copiedCells table row,
      [Marked.Piece.name wallet, .plain ":7"] ∈ c.2.strings :=
    ⟨.notifications, _, List.mem_singleton.mpr rfl,
      ("payload", .property [.plain "recordId"] (.string [.name wallet, .plain ":7"]) .empty),
      by decide +kernel, List.mem_cons_of_mem _ List.mem_cons_self⟩
  obtain ⟨table, row, hrow, c, hc, ht⟩ := hcopied
  have hmarked : Marked.Piece.name wallet ∈ [Marked.Piece.name wallet, .plain ":7"] :=
    List.mem_cons_self
  exact hclean wallet ⟨_, mem_texts_of_copied hrow hc ht, hmarked⟩ table row hrow c hc _ ht
    (Marked.infix_of_mem hmarked)

end NiffyInsure.Backend.Pseudonyms
