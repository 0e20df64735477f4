import NiffyInsure.Backend.CacheKeys
import Mathlib.Data.List.AList

/-!
# Dropping the cached values of a pattern

The client of `redis.service.ts` puts a prefix in front of the names that it reads, writes and
deletes, but not in front of the pattern of `KEYS`, which finds names as they are stored.
`delPattern` deletes what `KEYS` finds, and puts the prefix in front of it once more.

* `read_delPattern`: what is left of the store.
* `delPattern_keeps`: what does not match keeps its value.
* `delPattern_invalidates_iff`: when what matches is gone.
* `delPattern_eq_self`: nothing is deleted when no name starts like the pattern.
-/

namespace NiffyInsure.Backend.CacheInvalidation

open Js CacheKeys

/-! ## The store -/

/-- The names with their values, each with the time at which it expires. -/
structure Redis where
  now : Nat
  entries : AList fun _ : Text => Text × Nat

namespace Redis

variable {r : Redis} {name : Text} {names : List Text}

/-- `GET`. -/
def read (r : Redis) (name : Text) : Option Text :=
  (r.entries.lookup name).bind fun e => if r.now < e.2 then some e.1 else none

/-- `SETEX`, which is an error without a time to live. -/
def setex (r : Redis) (name : Text) (ttlSeconds : Nat) (value : Text) : Redis :=
  if 0 < ttlSeconds then { r with entries := r.entries.insert name (value, r.now + ttlSeconds) }
    else r

/-- `DEL`. -/
def del (r : Redis) (names : List Text) : Redis :=
  { r with entries := names.foldl (fun m name => m.erase name) r.entries }

/-- `KEYS`, with the matching of patterns. -/
def keys (glob : Text → Text → Bool) (r : Redis) (pattern : Text) : List Text :=
  r.entries.keys.filter fun name => (r.read name).isSome && glob pattern name

theorem lookup_foldl_erase : ∀ (names : List Text) (m : AList fun _ : Text => Text × Nat),
    (names.foldl (fun m name => m.erase name) m).lookup name =
      if name ∈ names then none else m.lookup name := by
  intro names
  induction names with
  | nil => intro m; simp
  | cons n names ih =>
    intro m
    rw [List.foldl_cons, ih]
    by_cases hname : name = n
    · subst hname
      simp
    · rw [AList.lookup_erase_ne hname]
      simp [hname]

theorem read_del : (r.del names).read name = if name ∈ names then none else r.read name := by
  unfold read del
  rw [lookup_foldl_erase]
  split <;> rfl

theorem read_empty (now : Nat) : (Redis.mk now ∅).read name = none := rfl

theorem read_setex_of_ne {name' value : Text} {ttlSeconds : Nat} (h : name ≠ name') :
    (r.setex name' ttlSeconds value).read name = r.read name := by
  unfold setex
  split
  · unfold read
    rw [AList.lookup_insert_ne h]
  · rfl

theorem mem_keys {glob : Text → Text → Bool} {pattern : Text} :
    name ∈ r.keys glob pattern ↔ (r.read name).isSome = true ∧ glob pattern name = true := by
  unfold keys
  rw [List.mem_filter, Bool.and_eq_true]
  refine and_iff_right_of_imp fun h => ?_
  obtain ⟨value, hvalue⟩ := Option.isSome_iff_exists.mp h.1
  obtain ⟨e, he, -⟩ := Option.bind_eq_some_iff.mp hvalue
  exact AList.lookup_isSome.mp (by rw [he]; rfl)

end Redis

/-! ## The client -/

/-- What the process is started with. -/
structure ProcessEnv where
  REDIS_KEY_PREFIX_OVERRIDE : Option Text
  APP_NAME : Option Text
  NODE_ENV : Option Text

/-- `buildKeyPrefix`. -/
def buildKeyPrefix (env : ProcessEnv) : Text :=
  let appName := ((env.REDIS_KEY_PREFIX_OVERRIDE <|> env.APP_NAME).getD (ascii "niffy"))
  appName ++ colon :: (env.NODE_ENV.getD (ascii "development") ++ [colon])

/-- Writing a value as text, and reading one: `none` for an exception, and for `null`. -/
structure Json (V : Type) where
  stringify : V → Text
  parse : Text → Option V

/-- The service, with the matching that `KEYS` does. -/
structure RedisService (V : Type) where
  keyPrefix : Text
  json : Json V
  glob : Text → Text → Bool

namespace RedisService

variable {V : Type}

/-- `get`, which returns `null` for `none`. -/
def get (service : RedisService V) (r : Redis) (key : Text) : Option V :=
  match r.read (service.keyPrefix ++ key) with
  | some value => if value = [] then none else service.json.parse value
  | none => none

/-- `set`. -/
def set (service : RedisService V) (r : Redis) (key : Text) (value : V)
    (ttlSeconds : Nat) : Redis :=
  r.setex (service.keyPrefix ++ key) ttlSeconds (service.json.stringify value)

/-- `delPattern`. -/
def delPattern (service : RedisService V) (r : Redis) (pattern : Text) : Redis :=
  let keys := r.keys service.glob pattern
  if 0 < keys.length then r.del (keys.map (service.keyPrefix ++ ·)) else r

end RedisService

/-- `*`. -/
abbrev star : UInt16 := 0x2A

/-- `invalidateAll` of the claim summaries. -/
def invalidateAll {V : Type} (service : RedisService V) (r : Redis) : Redis :=
  service.delPattern r (KEY_PREFIX ++ [colon, star])

/-- `delByPrefix`. -/
def delByPrefix {V : Type} (service : RedisService V) (config : CacheConfig) (r : Redis)
    (start : Text) (tenant : Option Text) : Redis :=
  service.delPattern r (buildKey config start tenant ++ [star])

/-! ## What is deleted -/

/-- A text that has no character with a meaning in a pattern: `*`, `?`, `[`, `]` and the
backslash. -/
def Literal (text : Text) : Prop := ∀ c ∈ text, c ∉ ([0x2A, 0x3F, 0x5B, 0x5D, 0x5C] : Text)

instance (text : Text) : Decidable (Literal text) :=
  List.decidableBAll (fun c => c ∉ ([0x2A, 0x3F, 0x5B, 0x5D, 0x5C] : Text)) text

/-- A literal text with `*` after it matches the names that start with the text. -/
def MatchesPrefix (glob : Text → Text → Bool) : Prop :=
  ∀ start name, Literal start → (glob (start ++ [star]) name = true ↔ start <+: name)

section

variable {V : Type} {service : RedisService V} {r : Redis} {start key : Text}

theorem read_delPattern (hglob : MatchesPrefix service.glob) (hstart : Literal start) :
    (service.delPattern r (start ++ [star])).read (service.keyPrefix ++ key) =
      if (r.read key).isSome = true ∧ start <+: key then none
      else r.read (service.keyPrefix ++ key) := by
  have hmem : service.keyPrefix ++ key ∈ (r.keys service.glob (start ++ [star])).map
      (service.keyPrefix ++ ·) ↔ (r.read key).isSome = true ∧ start <+: key := by
    rw [List.mem_map_of_injective (List.append_right_injective _), Redis.mem_keys, hglob _ _ hstart]
  unfold RedisService.delPattern
  dsimp only
  split
  · rw [Redis.read_del]
    simp only [hmem]
  · rename_i hnone
    have hnil := List.eq_nil_of_length_eq_zero (Nat.eq_zero_of_not_pos hnone)
    rw [hnil, List.map_nil] at hmem
    rw [if_neg fun h => List.not_mem_nil (hmem.mpr h)]

/-- **What does not match keeps its value.** -/
theorem delPattern_keeps (hglob : MatchesPrefix service.glob) (hstart : Literal start)
    (h : ¬ start <+: key) :
    service.get (service.delPattern r (start ++ [star])) key = service.get r key := by
  unfold RedisService.get
  rw [read_delPattern hglob hstart, if_neg fun hkey => h hkey.2]

theorem get_delPattern (hglob : MatchesPrefix service.glob) (hstart : Literal start)
    (h : start <+: key) :
    service.get (service.delPattern r (start ++ [star])) key =
      if (r.read key).isSome = true then none else service.get r key := by
  unfold RedisService.get
  rw [read_delPattern hglob hstart]
  by_cases hstored : (r.read key).isSome = true
  · rw [if_pos ⟨hstored, h⟩, if_pos hstored]
  · rw [if_neg fun hkey => hstored hkey.1, if_neg hstored]

/-- No value is left under a key that matches, and every other key keeps its value. -/
structure Invalidates (service : RedisService V) (r : Redis) (start : Text) : Prop where
  gone : ∀ key, start <+: key → service.get (service.delPattern r (start ++ [star])) key = none
  kept : ∀ key, ¬ start <+: key →
    service.get (service.delPattern r (start ++ [star])) key = service.get r key

/-- Every key that matches and has a value is also, as it is, the name of something stored. -/
def NamesItself (service : RedisService V) (r : Redis) (start : Text) : Prop :=
  ∀ key, start <+: key → (service.get r key).isSome = true → (r.read key).isSome = true

/-- **When a pattern is invalidated**: exactly when the keys that match are stored names
themselves. -/
theorem delPattern_invalidates_iff (service : RedisService V) (hglob : MatchesPrefix service.glob)
    (r : Redis) (start : Text) (hstart : Literal start) :
    Invalidates service r start ↔ NamesItself service r start := by
  constructor
  · intro h key hkey hvalue
    have hgone := h.gone key hkey
    rw [get_delPattern hglob hstart hkey] at hgone
    by_contra hnot
    rw [if_neg hnot] at hgone
    rw [hgone] at hvalue
    cases hvalue
  · intro h
    refine ⟨fun key hkey => ?_, fun key => delPattern_keeps hglob hstart⟩
    rw [get_delPattern hglob hstart hkey]
    split
    · rfl
    · rename_i hnot
      by_contra hsome
      exact hnot (h key hkey (Option.isSome_iff_ne_none.mpr hsome))

/-- **Nothing is deleted when no stored name starts like the pattern.** -/
theorem delPattern_eq_self (hglob : MatchesPrefix service.glob) (hstart : Literal start)
    (h : ∀ name, (r.read name).isSome = true → ¬ start <+: name) :
    service.delPattern r (start ++ [star]) = r := by
  have hnil : r.keys service.glob (start ++ [star]) = [] := by
    refine List.eq_nil_iff_forall_not_mem.mpr fun name hname => ?_
    rw [Redis.mem_keys, hglob _ _ hstart] at hname
    exact h name hname.1 hname.2
  unfold RedisService.delPattern
  rw [hnil]
  rfl

end

/-! ## Two stores -/

/-- The truth values as they are written. -/
def demoJson : Json Bool where
  stringify b := if b then ascii "true" else ascii "false"
  parse text :=
    if text = ascii "true" then some true else if text = ascii "false" then some false else none

/-- What `KEYS` does with a literal text and `*` after it. -/
def demoGlob (pattern name : Text) : Bool :=
  pattern.getLast? == some star && pattern.dropLast.isPrefixOf name

theorem demoGlob_matchesPrefix : MatchesPrefix demoGlob := by
  intro start name _
  simp [demoGlob]

/-- The service without settings. -/
def demoService : RedisService Bool := ⟨buildKeyPrefix ⟨none, none, none⟩, demoJson, demoGlob⟩

/-- The name under which the first cache stores the key `1`. -/
def demoName : Text := ascii "niffy:development:1"

/-- A store with this name, and with the name under which the second cache stores it. -/
def demoStore : Redis := demoService.set (demoService.set ⟨0, ∅⟩ (ascii "1") true 30)
    demoName true 30

/-- The two caches that use the prefix once and twice invalidate one another. -/
theorem delPattern_invalidates_twice :
    NamesItself demoService demoStore demoName ∧ Invalidates demoService demoStore demoName := by
  have hnames : NamesItself demoService demoStore demoName := by
    intro key hkey hvalue
    have hread : (demoStore.read (demoService.keyPrefix ++ key)).isSome = true := by
      unfold RedisService.get at hvalue
      split at hvalue
      · rename_i heq
        rw [heq]
        rfl
      · cases hvalue
    by_cases htwice : key = demoName
    · subst htwice
      decide +kernel
    · have hne : demoService.keyPrefix ++ key ≠ demoService.keyPrefix ++ demoName := fun h =>
        htwice (List.append_cancel_left h)
      by_cases honce : key = ascii "1"
      · subst honce
        exact absurd hkey (by decide +kernel)
      · have hne' : demoService.keyPrefix ++ key ≠ demoService.keyPrefix ++ ascii "1" := fun h =>
          honce (List.append_cancel_left h)
        rw [demoStore, RedisService.set, Redis.read_setex_of_ne hne, RedisService.set,
          Redis.read_setex_of_ne hne', Redis.read_empty] at hread
        cases hread
  exact ⟨hnames, (delPattern_invalidates_iff demoService demoGlob_matchesPrefix demoStore demoName
    (by decide +kernel)).mpr hnames⟩

/-- **The summaries stay**, however often they are invalidated. -/
theorem invalidateAll_keeps :
    let r := demoService.set ⟨0, ∅⟩ (summaryKey ⟨none, none, 0, none⟩) true 30
    demoService.get (invalidateAll demoService r) (summaryKey ⟨none, none, 0, none⟩) =
      some true := by
  have hnone : ∀ name, ((demoService.set ⟨0, ∅⟩ (summaryKey ⟨none, none, 0, none⟩) true 30).read
      name).isSome = true → ¬ KEY_PREFIX ++ [colon] <+: name := by
    intro name hname
    by_cases heq : name = demoService.keyPrefix ++ summaryKey ⟨none, none, 0, none⟩
    · subst heq
      decide +kernel
    · rw [RedisService.set, Redis.read_setex_of_ne heq, Redis.read_empty] at hname
      cases hname
  have hliteral : Literal (KEY_PREFIX ++ [colon]) := by decide +kernel
  have hself : demoService.delPattern _ (KEY_PREFIX ++ [colon] ++ [star]) = _ :=
    delPattern_eq_self demoGlob_matchesPrefix hliteral hnone
  rw [List.append_assoc, List.singleton_append] at hself
  dsimp only
  rw [invalidateAll, hself]
  decide +kernel

end NiffyInsure.Backend.CacheInvalidation
