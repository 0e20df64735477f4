import NiffyInsure.Lib.Joined
import NiffyInsure.Lib.JsNumber

/-!
# The keys of the caches

`cache.service.ts` and `claim-summary-cache.service.ts` join the parts of a key with `:`.  A part is
written as it is, and one that is absent is dropped, or written as a word that it could be itself.

* `buildKey_inj_iff`: which two argument pairs have one key.
* `summaryKey_own_iff`: which queries have a summary key of their own.
* `tenants_apart_iff`, `summary_tenants_apart_iff`: which tenants never share a key.
* `cache_keys_separate_iff`: all of them.
-/

namespace NiffyInsure.Backend.CacheKeys

open Js Joined

/-- The separator. -/
abbrev colon : UInt16 := 0x3A

/-- A word of ASCII characters. -/
def ascii (word : String) : Text := word.toList.map fun c => UInt16.ofNat c.toNat

/-! ## `CacheService` -/

/-- The settings that a key starts with. -/
structure CacheConfig where
  appName : Text
  env : Text

/-- The tenant of a key: the empty text is none. -/
def scope (tenant : Option Text) : Option Text := tenant.filter (· ≠ [])

/-- `buildKey`. -/
def buildKey (config : CacheConfig) (key : Text) (tenant : Option Text) : Text :=
  match scope tenant with
  | some t => config.appName ++ colon :: (config.env ++ colon :: (t ++ colon :: key))
  | none => config.appName ++ colon :: (config.env ++ colon :: key)

/-- The arguments of `buildKey`. -/
structure KeyArgs where
  key : Text
  tenant : Option Text

/-- The tenant of the first, or what of it goes on after the tenant of the second, stands in front
of its key in the key of the second. -/
def Shifts (x y : KeyArgs) : Prop :=
  ∃ t, scope x.tenant = some t ∧
    match scope y.tenant with
    | none => y.key = t ++ colon :: x.key
    | some t' => ∃ r, t = t' ++ colon :: r ∧ y.key = r ++ colon :: x.key

/-- An empty tenant beside none, or a part of the one key that is the tenant of the other. -/
def Clash (x y : KeyArgs) : Prop :=
  (x.key = y.key ∧ x.tenant ≠ y.tenant ∧ scope x.tenant = none ∧ scope y.tenant = none) ∨
    Shifts x y ∨ Shifts y x

section BuildKey

variable {config : CacheConfig} {key key' : Text} {tenant tenant' : Option Text} {t t' : Text}

theorem tenant_of_scope (h : scope tenant = some t) : tenant = some t := by
  obtain ⟨h, -⟩ := Option.filter_eq_some_iff.mp h
  exact h

theorem buildKey_eq_iff :
    buildKey config key tenant = buildKey config key' tenant' ↔
      (match scope tenant with | some t => t ++ colon :: key | none => key) =
        (match scope tenant' with | some t => t ++ colon :: key' | none => key') := by
  unfold buildKey
  cases scope tenant with
  | none => cases scope tenant' <;> simp
  | some t => cases scope tenant' <;> simp

variable (config) in
theorem Shifts.buildKey_eq {x y : KeyArgs} (h : Shifts x y) :
    buildKey config x.key x.tenant = buildKey config y.key y.tenant ∧ x ≠ y := by
  obtain ⟨t, hx, hy⟩ := h
  rw [buildKey_eq_iff, hx]
  cases hscope : scope y.tenant with
  | none =>
    rw [hscope] at hy
    refine ⟨hy.symm, ?_⟩
    rintro rfl
    cases hx.symm.trans hscope
  | some t' =>
    rw [hscope] at hy
    obtain ⟨r, rfl, hkey⟩ := hy
    refine ⟨?_, ?_⟩
    · dsimp only
      rw [hkey, List.append_assoc, List.cons_append]
    · rintro rfl
      exact ne_append_cons _ _ hkey

/-- **Two argument pairs have one key exactly if they are equal or clash.** -/
theorem buildKey_inj_iff (config : CacheConfig) (x y : KeyArgs) :
    (buildKey config x.key x.tenant = buildKey config y.key y.tenant → x = y) ↔ ¬ Clash x y := by
  constructor
  · rintro h (⟨hkey, hne, hx, hy⟩ | hshift | hshift)
    · refine hne (congrArg KeyArgs.tenant (h ?_))
      rw [buildKey_eq_iff, hx, hy]
      exact hkey
    · obtain ⟨heq, hne⟩ := hshift.buildKey_eq config
      exact hne (h heq)
    · obtain ⟨heq, hne⟩ := hshift.buildKey_eq config
      exact hne (h heq.symm).symm
  · intro hclash h
    rw [buildKey_eq_iff] at h
    obtain ⟨key, tenant⟩ := x
    obtain ⟨key', tenant'⟩ := y
    dsimp only at h
    cases hx : scope tenant with
    | none =>
      cases hy : scope tenant' with
      | none =>
        rw [hx, hy] at h
        cases h
        by_contra hne
        refine hclash (.inl ⟨rfl, ?_, hx, hy⟩)
        rintro rfl
        exact hne rfl
      | some t' =>
        rw [hx, hy] at h
        exact absurd (.inr (.inr ⟨t', hy, by rw [hx]; exact h⟩)) hclash
    | some t =>
      cases hy : scope tenant' with
      | none =>
        rw [hx, hy] at h
        exact absurd (.inr (.inl ⟨t, hx, by rw [hy]; exact h.symm⟩)) hclash
      | some t' =>
        rw [hx, hy] at h
        rcases join_eq_join_iff.mp h with ⟨rfl, rfl⟩ | ⟨r, hr, hkey⟩ | ⟨r, hr, hkey⟩
        · rw [tenant_of_scope hx, tenant_of_scope hy]
        · exact absurd (.inr (.inr ⟨t', hy, by rw [hx]; exact ⟨r, hr, hkey⟩⟩)) hclash
        · exact absurd (.inr (.inl ⟨t, hx, by rw [hy]; exact ⟨r, hr, hkey⟩⟩)) hclash

/-- Two tenants, neither of which is the other up to a separator. -/
def Apart (s s' : Option Text) : Prop :=
  ∃ t t', s = some t ∧ s' = some t' ∧ ¬ Nested colon t t'

/-- **Which tenants never share a key.** -/
theorem tenants_apart_iff (config : CacheConfig) (tenant tenant' : Option Text) :
    (∀ key key', buildKey config key tenant ≠ buildKey config key' tenant') ↔
      Apart (scope tenant) (scope tenant') := by
  simp only [Ne, buildKey_eq_iff]
  cases hx : scope tenant with
  | none =>
    refine iff_of_false (fun h => ?_) (by rintro ⟨t, t', ht, -⟩; cases ht)
    cases hy : scope tenant' with
    | none => exact h [] [] (by rw [hy])
    | some t' => exact h (t' ++ [colon]) [] (by rw [hy])
  | some t =>
    cases hy : scope tenant' with
    | none =>
      refine iff_of_false (fun h => h [] (t ++ [colon]) rfl) ?_
      rintro ⟨_, _, -, ht, -⟩
      cases ht
    | some t' =>
      constructor
      · intro h
        refine ⟨t, t', rfl, rfl, fun hnested => ?_⟩
        obtain ⟨key, key', heq⟩ := exists_join_iff.mpr hnested
        exact h key key' heq
      · rintro ⟨_, _, ht, ht', hnested⟩ key key' heq
        cases ht
        cases ht'
        exact hnested (exists_join_iff.mp ⟨key, key', heq⟩)

end BuildKey

/-! ## `ClaimSummaryCacheService` -/

/-- The parts of a summary key: the tenant, the cursor, the size of the page and the status. -/
structure SummaryParts where
  tenantId : Option Text
  after : Option Text
  limit : Int
  status : Option Text

def KEY_PREFIX : Text := ascii "claims:summary"

/-- The words for what is absent. -/
def GLOBAL : Text := ascii "global"
def START : Text := ascii "start"
def ALL : Text := ascii "all"

/-- `key`. -/
def summaryKey (parts : SummaryParts) : Text :=
  KEY_PREFIX ++ colon :: (parts.tenantId.getD GLOBAL ++ colon :: (parts.after.getD START ++ colon ::
    (intText parts.limit ++ colon :: parts.status.getD ALL)))

theorem colon_not_mem_intText (n : Int) : colon ∉ intText n :=
  not_mem_intText (by decide) (by decide) n

/-- A number stands between separators, or at the front before one. -/
def NumberInside (text : Text) : Prop :=
  ∃ (n : Int) (rest : Text), text = intText n ++ colon :: rest ∨
    ∃ front, text = front ++ colon :: (intText n ++ colon :: rest)

/-- Every part is there and is not the word for an absent one, the tenant and the cursor have no
separator, and no part of the status could be the size of the page. -/
structure Own (parts : SummaryParts) : Prop where
  tenant : ∃ t, parts.tenantId = some t ∧ t ≠ GLOBAL ∧ colon ∉ t
  after : ∃ a, parts.after = some a ∧ a ≠ START ∧ colon ∉ a
  status : ∃ s, parts.status = some s ∧ s ≠ ALL ∧ ¬ NumberInside s

/-- What is given is not the word for an absent part, and no tenant and cursor have a separator. -/
structure Plain (parts : SummaryParts) : Prop where
  tenant : ∀ t, parts.tenantId = some t → t ≠ GLOBAL ∧ colon ∉ t
  after : ∀ a, parts.after = some a → a ≠ START ∧ colon ∉ a
  status : ∀ s, parts.status = some s → s ≠ ALL

section Summary

variable {x y : SummaryParts}

theorem eq_of_getD {a b : Option Text} {word : Text} (ha : ∀ t, a = some t → t ≠ word)
    (hb : ∀ t, b = some t → t ≠ word) (h : a.getD word = b.getD word) : a = b := by
  cases a with
  | none =>
    cases b with
    | none => rfl
    | some t => exact absurd h.symm (hb t rfl)
  | some t =>
    cases b with
    | none => exact absurd h (ha t rfl)
    | some t' => exact congrArg some h

theorem not_mem_getD {a : Option Text} {word : Text} (hword : colon ∉ word)
    (ha : ∀ t, a = some t → colon ∉ t) : colon ∉ a.getD word := by
  cases a with
  | none => exact hword
  | some t => exact ha t rfl

theorem colon_not_mem_words : colon ∉ GLOBAL ∧ colon ∉ START := by decide

theorem summaryKey_eq_iff :
    summaryKey x = summaryKey y ↔
      x.tenantId.getD GLOBAL ++ colon :: (x.after.getD START ++ colon ::
          (intText x.limit ++ colon :: x.status.getD ALL)) =
        y.tenantId.getD GLOBAL ++ colon :: (y.after.getD START ++ colon ::
          (intText y.limit ++ colon :: y.status.getD ALL)) := by
  unfold summaryKey
  rw [List.append_cancel_left_eq, List.cons_inj_right]

/-- **Plain queries have different keys.** -/
theorem summaryKey_inj (hx : Plain x) (hy : Plain y) (h : summaryKey x = summaryKey y) : x = y := by
  rw [summaryKey_eq_iff] at h
  obtain ⟨htenant, h⟩ := join_inj
    (not_mem_getD colon_not_mem_words.1 fun t ht => (hx.tenant t ht).2)
    (not_mem_getD colon_not_mem_words.1 fun t ht => (hy.tenant t ht).2) h
  obtain ⟨hafter, h⟩ := join_inj
    (not_mem_getD colon_not_mem_words.2 fun a ha => (hx.after a ha).2)
    (not_mem_getD colon_not_mem_words.2 fun a ha => (hy.after a ha).2) h
  obtain ⟨hlimit, hstatus⟩ := join_inj (colon_not_mem_intText _) (colon_not_mem_intText _) h
  obtain ⟨tenantId, after, limit, status⟩ := x
  obtain ⟨tenantId', after', limit', status'⟩ := y
  rw [SummaryParts.mk.injEq]
  exact ⟨eq_of_getD (fun t ht => (hx.tenant t ht).1) (fun t ht => (hy.tenant t ht).1) htenant,
    eq_of_getD (fun a ha => (hx.after a ha).1) (fun a ha => (hy.after a ha).1) hafter,
    intText_inj hlimit, eq_of_getD hx.status hy.status hstatus⟩

theorem eq_some_of_getD {a : Option Text} {word t : Text} (ht : t ≠ word) (h : t = a.getD word) :
    a = some t := by
  cases a with
  | none => exact absurd h ht
  | some t' => exact congrArg some h.symm

theorem NumberInside.of_status {m n : Int} {r status rest : Text}
    (h : intText m ++ colon :: status = r ++ colon :: (intText n ++ colon :: rest)) :
    NumberInside status := by
  rcases join_eq_of_not_mem (colon_not_mem_intText m) h with ⟨-, hstatus⟩ | ⟨q, -, hstatus⟩
  · exact ⟨n, rest, .inl hstatus⟩
  · exact ⟨n, rest, .inr ⟨q, hstatus⟩⟩

theorem NumberInside.of_after {m n : Int} {a a' r status rest : Text} (ha : colon ∉ a)
    (h : a ++ colon :: (intText m ++ colon :: status) =
      r ++ colon :: (a' ++ colon :: (intText n ++ colon :: rest))) : NumberInside status := by
  rcases join_eq_of_not_mem ha h with ⟨-, hrest⟩ | ⟨q, -, hrest⟩
  · exact .of_status hrest
  · have hfront : intText m ++ colon :: status =
        (q ++ colon :: a') ++ colon :: (intText n ++ colon :: rest) := by
      rw [hrest, List.append_assoc, List.cons_append]
    exact .of_status hfront

theorem Own.eq (hx : Own x) (h : summaryKey x = summaryKey y) : x = y := by
  obtain ⟨⟨t, ht, htword, htcolon⟩, ⟨a, ha, haword, hacolon⟩, ⟨s, hs, hsword, hinside⟩⟩ := hx
  rw [summaryKey_eq_iff, ht, ha, hs] at h
  obtain ⟨tenantId, after, limit, status⟩ := x
  obtain ⟨tenantId', after', limit', status'⟩ := y
  dsimp only at ht ha hs
  subst ht ha hs
  rcases join_eq_of_not_mem htcolon h with ⟨htenant, h⟩ | ⟨r, -, h⟩
  · rcases join_eq_of_not_mem hacolon h with ⟨hafter, h⟩ | ⟨r, -, h⟩
    · obtain ⟨hlimit, hstatus⟩ := join_inj (colon_not_mem_intText _) (colon_not_mem_intText _) h
      rw [SummaryParts.mk.injEq]
      exact ⟨(eq_some_of_getD htword htenant).symm, (eq_some_of_getD haword hafter).symm,
        intText_inj hlimit, (eq_some_of_getD hsword hstatus).symm⟩
    · exact absurd (.of_status h) hinside
  · exact absurd (.of_after hacolon h) hinside

theorem own_tenant (h : ∀ y, summaryKey x = summaryKey y → x = y) :
    ∃ t, x.tenantId = some t ∧ t ≠ GLOBAL ∧ colon ∉ t := by
  obtain ⟨tenantId, after, limit, status⟩ := x
  cases tenantId with
  | none => cases h ⟨some GLOBAL, after, limit, status⟩ rfl
  | some t =>
    refine ⟨t, rfl, ?_, fun hmem => ?_⟩
    · rintro rfl
      cases h ⟨none, after, limit, status⟩ rfl
    · obtain ⟨front, back, rfl⟩ := List.append_of_mem hmem
      -- the rest of the tenant goes over to the cursor
      have heq := h ⟨some front, some (back ++ colon :: after.getD START), limit, status⟩
        (by rw [summaryKey_eq_iff]; simp)
      simp at heq

theorem own_after (h : ∀ y, summaryKey x = summaryKey y → x = y) :
    ∃ a, x.after = some a ∧ a ≠ START ∧ colon ∉ a := by
  obtain ⟨tenantId, after, limit, status⟩ := x
  cases after with
  | none => cases h ⟨tenantId, some START, limit, status⟩ rfl
  | some a =>
    refine ⟨a, rfl, ?_, fun hmem => ?_⟩
    · rintro rfl
      cases h ⟨tenantId, none, limit, status⟩ rfl
    · obtain ⟨front, back, rfl⟩ := List.append_of_mem hmem
      -- the front of the cursor goes over to the tenant
      have heq := h ⟨some (tenantId.getD GLOBAL ++ colon :: front), some back, limit, status⟩
        (by rw [summaryKey_eq_iff]; simp)
      rw [SummaryParts.mk.injEq] at heq
      exact ne_append_cons _ _ (Option.some_inj.mp heq.2.1).symm

theorem own_status (h : ∀ y, summaryKey x = summaryKey y → x = y) :
    ∃ s, x.status = some s ∧ s ≠ ALL ∧ ¬ NumberInside s := by
  obtain ⟨tenantId, after, limit, status⟩ := x
  cases status with
  | none => cases h ⟨tenantId, after, limit, some ALL⟩ rfl
  | some s =>
    refine ⟨s, rfl, ?_, ?_⟩
    · rintro rfl
      cases h ⟨tenantId, after, limit, none⟩ rfl
    · rintro ⟨n, rest, rfl | ⟨front, rfl⟩⟩
      · have heq := h ⟨tenantId, some (after.getD START ++ colon :: intText limit), n, some rest⟩
          (by rw [summaryKey_eq_iff]; simp)
        rw [SummaryParts.mk.injEq] at heq
        exact ne_append_cons _ _ (Option.some_inj.mp heq.2.2.2).symm
      · have heq := h ⟨tenantId,
          some (after.getD START ++ colon :: (intText limit ++ colon :: front)), n, some rest⟩
          (by rw [summaryKey_eq_iff]; simp)
        rw [SummaryParts.mk.injEq] at heq
        have hrest := Option.some_inj.mp heq.2.2.2
        rw [← List.cons_append, ← List.append_assoc] at hrest
        exact ne_append_cons _ _ hrest.symm

/-- **Which queries have a key of their own.** -/
theorem summaryKey_own_iff (x : SummaryParts) :
    (∀ y, summaryKey x = summaryKey y → x = y) ↔ Own x :=
  ⟨fun h => ⟨own_tenant h, own_after h, own_status h⟩, fun hx _ h => hx.eq h⟩

/-- **Which tenants never share a summary key.** -/
theorem summary_tenants_apart_iff (tenant tenant' : Option Text) :
    (∀ x y, x.tenantId = tenant → y.tenantId = tenant' → summaryKey x ≠ summaryKey y) ↔
      ¬ Nested colon (tenant.getD GLOBAL) (tenant'.getD GLOBAL) := by
  constructor
  · rintro h (heq | ⟨r, hr⟩ | ⟨r, hr⟩)
    · refine h ⟨tenant, none, 0, none⟩ ⟨tenant', none, 0, none⟩ rfl rfl ?_
      rw [summaryKey_eq_iff, heq]
    · refine h ⟨tenant, some (r ++ colon :: START), 0, none⟩ ⟨tenant', none, 0, none⟩ rfl rfl ?_
      rw [summaryKey_eq_iff, hr]
      simp
    · refine h ⟨tenant, none, 0, none⟩ ⟨tenant', some (r ++ colon :: START), 0, none⟩ rfl rfl ?_
      rw [summaryKey_eq_iff, hr]
      simp
  · rintro hnested x y rfl rfl h
    rw [summaryKey_eq_iff] at h
    exact hnested (exists_join_iff.mp ⟨_, _, h⟩)

end Summary

/-! ## Both caches -/

/-- **When the keys of the caches are apart**, for pairs of arguments, for queries and for
tenants. -/
theorem cache_keys_separate_iff (config : CacheConfig) :
    (∀ x y : KeyArgs,
      (buildKey config x.key x.tenant = buildKey config y.key y.tenant → x = y) ↔ ¬ Clash x y) ∧
    (∀ x : SummaryParts, (∀ y, summaryKey x = summaryKey y → x = y) ↔ Own x) ∧
    (∀ x y : SummaryParts, Plain x → Plain y → summaryKey x = summaryKey y → x = y) ∧
    (∀ tenant tenant' : Option Text,
      (∀ key key', buildKey config key tenant ≠ buildKey config key' tenant') ↔
        Apart (scope tenant) (scope tenant')) ∧
    ∀ tenant tenant' : Option Text,
      (∀ x y : SummaryParts, x.tenantId = tenant → y.tenantId = tenant' →
        summaryKey x ≠ summaryKey y) ↔ ¬ Nested colon (tenant.getD GLOBAL) (tenant'.getD GLOBAL) :=
  ⟨buildKey_inj_iff config, summaryKey_own_iff, fun _ _ => summaryKey_inj, tenants_apart_iff config,
    summary_tenants_apart_iff⟩

/-- **A tenant can be named as the word for none**, and a key of no tenant as one of a tenant. -/
theorem cache_keys_collide :
    (summaryKey ⟨some (ascii "global"), none, 20, none⟩ = summaryKey ⟨none, none, 20, none⟩ ∧
      (⟨some (ascii "global"), none, 20, none⟩ : SummaryParts) ≠ ⟨none, none, 20, none⟩) ∧
    buildKey ⟨ascii "niffy", ascii "test"⟩ (ascii "1") (some (ascii "acme")) =
        buildKey ⟨ascii "niffy", ascii "test"⟩ (ascii "acme:1") none ∧
      (⟨ascii "1", some (ascii "acme")⟩ : KeyArgs) ≠ ⟨ascii "acme:1", none⟩ :=
  ⟨⟨rfl, nofun⟩, by decide +kernel, nofun⟩

end NiffyInsure.Backend.CacheKeys
