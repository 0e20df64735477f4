import Mathlib.Data.Finset.Dedup
import NiffyInsure.Lib.Buckets
import NiffyInsure.Frame.Basic

/-!
# The voter registry as one list

The registry is kept in four places: the buckets, their count, the length and the membership
flags.  `State.buckets` reads the first two as a list of buckets, and the writes of
`append_voter_unchecked` and `remove_voter` are `Bucketed.push` and a swap with the last voter
followed by `Bucketed.pop`.  `RegistrySound` says that the four places agree.

* `registrySound_append`, `removeVoter_exact`: the two ways in which the registry changes.
* `addVotersBatch_exact`, `setVoters_exact`: the loops over them.
-/

namespace NiffyInsure

open Bucketed

namespace State

variable (s : State)

/-- The counted buckets, in order. -/
def buckets : List (List Address) := (List.range s.getVoterBucketCount).map s.getVoterBucket

/-- The four places of the registry agree, and no legacy vector is left. -/
structure RegistrySound : Prop where
  migrated : s.get .voters = none
  packed : Packed VOTER_BUCKET_SIZE s.buckets
  nodup : s.getVoters.Nodup
  length_eq : s.voterRegistryLen = s.getVoters.length
  contains_iff : ∀ a, s.voterRegistryContains a = true ↔ a ∈ s.getVoters
  within_cap : s.getVoters.length ≤ MAX_ELIGIBLE_VOTERS

end State

section Buckets

variable {s s' : State} {holder : Address}

theorem getVoters_eq_flatten (s : State) : s.getVoters = s.buckets.flatten :=
  List.flatMap_def ..

/-- The buckets are `bs` when the count is its length and each bucket is there. -/
theorem buckets_eq {bs : List (List Address)} (hcount : s.getVoterBucketCount = bs.length)
    (hbucket : ∀ i, (hi : i < bs.length) → s.getVoterBucket i = bs[i]) : s.buckets = bs := by
  apply List.ext_getElem
  · rw [State.buckets, List.length_map, List.length_range, hcount]
  · intro i _ hi
    simp only [State.buckets, List.getElem_map, List.getElem_range]
    exact hbucket i hi

@[simp] theorem length_buckets (s : State) : s.buckets.length = s.getVoterBucketCount := by
  rw [State.buckets, List.length_map, List.length_range]

theorem getElem_buckets {i : Nat} (hi : i < s.buckets.length) :
    s.buckets[i] = s.getVoterBucket i := by
  simp [State.buckets]

theorem buckets_congr (hcount : s'.getVoterBucketCount = s.getVoterBucketCount)
    (hbucket : ∀ i, s'.getVoterBucket i = s.getVoterBucket i) : s'.buckets = s.buckets := by
  refine buckets_eq (by rw [length_buckets, hcount]) ?_
  intro i hi
  rw [hbucket, getElem_buckets]

theorem buckets_snoc {c : Nat} (hc : s.getVoterBucketCount = c + 1) :
    s.buckets = (List.range c).map s.getVoterBucket ++ [s.getVoterBucket c] := by
  rw [State.buckets, hc, List.range_succ, List.map_append, List.map_singleton]

theorem buckets_mark (t : State) (holder : Address) (len : Nat) :
    ((t.set (.voterMember holder) true).set .voterRegistryLen len).buckets = t.buckets :=
  buckets_congr (by simp [State.getVoterBucketCount]) (fun i => by simp [State.getVoterBucket])

theorem buckets_unmark (t : State) (holder : Address) (len : Nat) :
    ((t.remove (.voterMember holder)).set .voterRegistryLen len).buckets = t.buckets :=
  buckets_congr (by simp [State.getVoterBucketCount]) (fun i => by simp [State.getVoterBucket])

theorem buckets_new (s : State) (b : List Address) :
    ((s.set (.voterBucket s.getVoterBucketCount) b).set .voterBucketCount
      (s.getVoterBucketCount + 1)).buckets = s.buckets ++ [b] := by
  refine buckets_eq (by simp [State.getVoterBucketCount]) ?_
  intro i hi
  by_cases hlt : i < s.buckets.length
  · have hne : i ≠ s.getVoterBucketCount := by
      rw [length_buckets] at hlt
      exact hlt.ne
    rw [List.getElem_append_left hlt, getElem_buckets]
    simp [State.getVoterBucket, hne]
  · have hlast : i = s.getVoterBucketCount := by
      simp only [List.length_append, length_buckets, List.length_singleton] at hi hlt
      omega
    subst hlast
    rw [List.getElem_append_right (by omega)]
    simp [State.getVoterBucket]

theorem buckets_overwrite {i : Nat} (b : List Address) :
    (s.set (.voterBucket i) b).buckets = s.buckets.set i b := by
  refine buckets_eq (by simp [State.getVoterBucketCount]) ?_
  intro j hj
  rw [List.getElem_set]
  split
  · rename_i heq
    subst heq
    simp [State.getVoterBucket]
  · rename_i hne
    rw [getElem_buckets]
    simp [State.getVoterBucket, Ne.symm hne]

theorem buckets_append (s : State) (holder : Address) :
    (s.appendVoterUnchecked holder).buckets = push VOTER_BUCKET_SIZE holder s.buckets := by
  unfold State.appendVoterUnchecked
  rw [buckets_mark]
  split
  · rename_i hzero
    have hnew := buckets_new s [holder]
    have hempty : s.buckets = [] := by simp [State.buckets, hzero]
    rw [hempty, hzero] at hnew
    rw [hempty]
    exact hnew
  · rename_i hne
    obtain ⟨c, hc⟩ := Nat.exists_eq_succ_of_ne_zero hne
    have hlast : s.getVoterBucketCount - 1 = c := by omega
    have hsnoc := buckets_snoc hc
    rw [hlast, hsnoc, push_snoc]
    dsimp only
    split
    · rw [buckets_new, hsnoc]
    · rw [buckets_overwrite, hsnoc, List.set_append_right _ _ (by simp)]
      simp

theorem getVoters_append (s : State) (holder : Address) :
    (s.appendVoterUnchecked holder).getVoters = s.getVoters ++ [holder] := by
  rw [getVoters_eq_flatten, buckets_append, flatten_push, ← getVoters_eq_flatten]

/-- `storeLastBucket` writes the last bucket, or drops it when it is empty. -/
theorem buckets_storeLastBucket {c : Nat} (hc : s.getVoterBucketCount = c + 1)
    (b : List Address) :
    (s.storeLastBucket c b).buckets =
      if b = [] then s.buckets.dropLast else s.buckets.dropLast ++ [b] := by
  have hsnoc := buckets_snoc hc
  unfold State.storeLastBucket
  split
  · rw [hsnoc, List.dropLast_concat]
    refine buckets_eq (by simp [State.getVoterBucketCount]) ?_
    intro i hi
    rw [List.getElem_map, List.getElem_range]
    rw [List.length_map, List.length_range] at hi
    simp [State.getVoterBucket, hi.ne]
  · rw [buckets_overwrite, hsnoc, List.dropLast_concat, List.set_append_right _ _ (by simp)]
    simp

end Buckets

/-! ## Entering voters -/

section Entering

variable {s s' : State} {holder : Address}

theorem registrySound_of_same (h : SameKind .registry s s') (hs : s.RegistrySound) :
    s'.RegistrySound := by
  have hcount : s'.getVoterBucketCount = s.getVoterBucketCount := by
    simp only [State.getVoterBucketCount, h .voterBucketCount rfl]
  have hbuckets : s'.buckets = s.buckets := by
    refine buckets_congr hcount fun i => ?_
    simp only [State.getVoterBucket, h (.voterBucket i) rfl]
  have hvoters : s'.getVoters = s.getVoters := by
    rw [getVoters_eq_flatten, hbuckets, getVoters_eq_flatten]
  refine ⟨?_, ?_, ?_, ?_, fun a => ?_, ?_⟩
  · rw [h .voters rfl, hs.migrated]
  · rw [hbuckets]
    exact hs.packed
  · rw [hvoters]
    exact hs.nodup
  · rw [hvoters, ← hs.length_eq]
    simp only [State.voterRegistryLen, h .voterRegistryLen rfl]
  · rw [hvoters, ← hs.contains_iff]
    simp only [State.voterRegistryContains, h (.voterMember a) rfl]
  · rw [hvoters]
    exact hs.within_cap

/-- The registry without buckets, length and flags is the empty one. -/
theorem registrySound_empty (hlegacy : s.get .voters = none) (hcount : s.getVoterBucketCount = 0)
    (hlen : s.voterRegistryLen = 0) (hflags : ∀ a, s.voterRegistryContains a = false) :
    s.RegistrySound := by
  have hbuckets : s.buckets = [] := by simp [State.buckets, hcount]
  have hvoters : s.getVoters = [] := by rw [getVoters_eq_flatten, hbuckets, List.flatten_nil]
  refine ⟨hlegacy, ?_, ?_, ?_, fun a => ?_, ?_⟩
  · rw [hbuckets]
    exact packed_nil _
  · rw [hvoters]
    exact List.nodup_nil
  · rw [hvoters, hlen, List.length_nil]
  · rw [hvoters, hflags]
    simp
  · rw [hvoters]
    exact Nat.zero_le _

theorem getVoters_of_same (h : SameKind .registry s s') : s'.getVoters = s.getVoters := by
  rw [getVoters_eq_flatten, getVoters_eq_flatten]
  refine congrArg List.flatten (buckets_congr ?_ fun i => ?_)
  · simp only [State.getVoterBucketCount, h .voterBucketCount rfl]
  · simp only [State.getVoterBucket, h (.voterBucket i) rfl]

theorem voters_append (s : State) (holder : Address) :
    (s.appendVoterUnchecked holder).get .voters = s.get .voters := by
  unfold State.appendVoterUnchecked
  dsimp only
  split
  · simp
  · split <;> simp

theorem registryLen_append (s : State) (holder : Address) :
    (s.appendVoterUnchecked holder).voterRegistryLen = saturatingAdd32 s.voterRegistryLen 1 := by
  unfold State.appendVoterUnchecked
  dsimp only
  split
  · simp [State.voterRegistryLen]
  · split <;> simp [State.voterRegistryLen]

theorem registryContains_append (s : State) (holder a : Address) :
    (s.appendVoterUnchecked holder).voterRegistryContains a =
      (decide (a = holder) || s.voterRegistryContains a) := by
  unfold State.appendVoterUnchecked
  dsimp only
  by_cases ha : a = holder
  · subst ha
    simp [State.voterRegistryContains]
  · split
    · simp [State.voterRegistryContains, ha]
    · split <;> simp [State.voterRegistryContains, ha]

theorem registrySound_append (hs : s.RegistrySound) (hnew : holder ∉ s.getVoters)
    (hroom : s.getVoters.length < MAX_ELIGIBLE_VOTERS) :
    (s.appendVoterUnchecked holder).RegistrySound where
  migrated := by rw [voters_append, hs.migrated]
  packed := by
    rw [buckets_append]
    exact packed_push (by decide) hs.packed
  nodup := by
    rw [getVoters_append, ← List.concat_eq_append]
    exact List.Nodup.concat hnew hs.nodup
  length_eq := by
    rw [registryLen_append, getVoters_append, hs.length_eq, List.length_append,
      List.length_singleton, saturatingAdd32]
    have hmax : MAX_ELIGIBLE_VOTERS ≤ U32_MAX := by decide
    omega
  contains_iff a := by
    rw [registryContains_append, getVoters_append, List.mem_append, List.mem_singleton,
      Bool.or_eq_true, decide_eq_true_eq, hs.contains_iff]
    exact Or.comm
  within_cap := by
    rw [getVoters_append, List.length_append, List.length_singleton]
    exact hroom

theorem registrySound_foldl_append :
    ∀ (added : List Address) (s : State), s.RegistrySound → added.Nodup →
      (∀ a ∈ added, a ∉ s.getVoters) → s.getVoters.length + added.length ≤ MAX_ELIGIBLE_VOTERS →
      (added.foldl State.appendVoterUnchecked s).RegistrySound := by
  intro added
  induction added with
  | nil =>
    intro s hs _ _ _
    exact hs
  | cons a rest ih =>
    intro s hs hnodup hnew hroom
    rw [List.nodup_cons] at hnodup
    rw [List.length_cons] at hroom
    rw [List.foldl_cons]
    refine ih _ (registrySound_append hs (hnew a (by simp)) (by omega)) hnodup.2 ?_ ?_
    · intro b hb hmem
      rw [getVoters_append, List.mem_append, List.mem_singleton] at hmem
      rcases hmem with hmem | rfl
      · exact hnew b (by simp [hb]) hmem
      · exact hnodup.1 hb
    · rw [getVoters_append, List.length_append, List.length_singleton]
      omega

theorem getVoters_foldl_append :
    ∀ (added : List Address) (s : State),
      (added.foldl State.appendVoterUnchecked s).getVoters = s.getVoters ++ added := by
  intro added
  induction added with
  | nil =>
    intro s
    rw [List.foldl_nil, List.append_nil]
  | cons a rest ih =>
    intro s
    rw [List.foldl_cons, ih, getVoters_append, List.append_assoc, List.singleton_append]

theorem newVoters_spec (s : State) :
    ∀ (addresses toAdd : List Address), toAdd.Nodup →
      (∀ a ∈ toAdd, s.voterRegistryContains a = false) →
      (s.newVoters toAdd addresses).Nodup ∧ ∀ a, a ∈ s.newVoters toAdd addresses ↔
        a ∈ toAdd ∨ a ∈ addresses ∧ s.voterRegistryContains a = false := by
  intro addresses
  induction addresses with
  | nil =>
    intro toAdd hnodup _
    exact ⟨hnodup, fun a => by simp [State.newVoters]⟩
  | cons b rest ih =>
    intro toAdd hnodup hnew
    rw [State.newVoters]
    split
    · rename_i hb
      obtain ⟨hnd, hmem⟩ := ih toAdd hnodup hnew
      refine ⟨hnd, fun a => ?_⟩
      rw [hmem, List.mem_cons]
      grind
    · rename_i hb
      rw [Bool.not_eq_true] at hb
      split
      · rename_i hin
        obtain ⟨hnd, hmem⟩ := ih toAdd hnodup hnew
        refine ⟨hnd, fun a => ?_⟩
        rw [hmem, List.mem_cons]
        grind
      · rename_i hout
        have hnew' : ∀ a ∈ toAdd ++ [b], s.voterRegistryContains a = false := by
          intro a ha
          rw [List.mem_append, List.mem_singleton] at ha
          rcases ha with ha | rfl
          · exact hnew a ha
          · exact hb
        have hnodup' : (toAdd ++ [b]).Nodup := by
          rw [← List.concat_eq_append]
          exact List.Nodup.concat hout hnodup
        obtain ⟨hnd, hmem⟩ := ih (toAdd ++ [b]) hnodup' hnew'
        refine ⟨hnd, fun a => ?_⟩
        rw [hmem, List.mem_cons, List.mem_append, List.mem_singleton]
        grind

/-- **`voters_ensure_holder` adds the holder** if it is absent, and nothing else. -/
theorem votersEnsureHolder_exact (hs : s.RegistrySound)
    (h : s.votersEnsureHolder holder = .ok s') :
    s'.RegistrySound ∧ ∀ a, a ∈ s'.getVoters ↔ a ∈ s.getVoters ∨ a = holder := by
  unfold State.votersEnsureHolder at h
  dsimp only at h
  split at h
  · rename_i hin
    cases h
    refine ⟨hs, fun a => ?_⟩
    constructor
    · exact Or.inl
    · rintro (ha | rfl)
      · exact ha
      · exact hin
  · rename_i hnew
    split at h
    · cases h
    · rename_i hroom
      cases h
      refine ⟨registrySound_append hs hnew (by omega), fun a => ?_⟩
      rw [getVoters_append, List.mem_append, List.mem_singleton]

theorem addVoter_eq_ok (h : s.addVoter holder = .ok s') :
    ∃ s₁, s.votersEnsureHolder holder = .ok s₁ ∧
      s' = s₁.set (.activePolicyCount holder) (s₁.getActivePolicyCount holder + 1) := by
  dsimp only [State.addVoter] at h
  unfold State.votersEnsureHolder
  dsimp only
  split at h
  · rename_i hin
    simp only [bind_eq_ok, add32_eq_ok, pure_eq_ok] at h
    obtain ⟨s₁, h₁, count, ⟨-, rfl⟩, rfl⟩ := h
    rw [if_pos hin]
    exact ⟨s₁, h₁, rfl⟩
  · rename_i hnew
    rw [if_neg hnew]
    split at h
    · cases h
    · rename_i hroom
      simp only [bind_eq_ok, add32_eq_ok, pure_eq_ok] at h
      obtain ⟨s₁, h₁, count, ⟨-, rfl⟩, rfl⟩ := h
      rw [if_neg hroom]
      exact ⟨s₁, h₁, rfl⟩

/-- **`add_voter` adds the holder** if it is absent, and nothing else. -/
theorem addVoter_exact (hs : s.RegistrySound) (h : s.addVoter holder = .ok s') :
    s'.RegistrySound ∧ ∀ a, a ∈ s'.getVoters ↔ a ∈ s.getVoters ∨ a = holder := by
  obtain ⟨s₁, h₁, rfl⟩ := addVoter_eq_ok h
  obtain ⟨hs₁, hmem⟩ := votersEnsureHolder_exact hs h₁
  have hsame : SameKind .registry s₁
      (s₁.set (.activePolicyCount holder) (s₁.getActivePolicyCount holder + 1)) := by simp
  refine ⟨registrySound_of_same hsame hs₁, fun a => ?_⟩
  rw [getVoters_of_same hsame]
  exact hmem a

theorem newVoters_exact (hs : s.RegistrySound) (addresses : List Address) :
    (s.newVoters [] addresses).Nodup ∧
      ∀ a, a ∈ s.newVoters [] addresses ↔ a ∈ addresses ∧ a ∉ s.getVoters := by
  obtain ⟨hnodup, hmem⟩ := newVoters_spec s addresses [] List.nodup_nil (by simp)
  refine ⟨hnodup, fun a => ?_⟩
  rw [hmem, ← hs.contains_iff, Bool.not_eq_true]
  simp

theorem length_newVoters (hs : s.RegistrySound) (addresses : List Address) :
    (s.newVoters [] addresses).length = (addresses.toFinset \ s.getVoters.toFinset).card := by
  obtain ⟨hnodup, hmem⟩ := newVoters_exact hs addresses
  rw [← List.toFinset_card_of_nodup hnodup]
  congr 1
  ext a
  rw [List.mem_toFinset, hmem, Finset.mem_sdiff, List.mem_toFinset, List.mem_toFinset]

/-- **A batch adds exactly the absent addresses.** -/
theorem addVotersBatch_exact {addresses added : List Address} (hs : s.RegistrySound)
    (h : s.addVotersBatch addresses = .ok (added, s')) :
    s'.RegistrySound ∧ s'.getVoters = s.getVoters ++ added ∧ added.Nodup ∧
      ∀ a, a ∈ added ↔ a ∈ addresses ∧ a ∉ s.getVoters := by
  simp only [State.addVotersBatch, bind_eq_ok, ensure_eq_ok, pure_eq_ok, Prod.mk.injEq] at h
  obtain ⟨-, hroom, rfl, rfl⟩ := h
  obtain ⟨hnodup, hmem⟩ := newVoters_exact hs addresses
  refine ⟨registrySound_foldl_append _ s hs hnodup (fun a ha => ((hmem a).mp ha).2) ?_,
    getVoters_foldl_append _ s, hnodup, hmem⟩
  rw [hs.length_eq, saturatingAdd32] at hroom
  have hmax : MAX_ELIGIBLE_VOTERS < U32_MAX := by decide
  omega

/-- **A batch over the cap fails as a whole.** -/
theorem addVotersBatch_full {addresses : List Address} (hs : s.RegistrySound)
    (hover : MAX_ELIGIBLE_VOTERS <
      s.getVoters.length + (addresses.toFinset \ s.getVoters.toFinset).card) :
    s.addVotersBatch addresses = .error (.error .voterRegistryFull) := by
  have hmax : MAX_ELIGIBLE_VOTERS < U32_MAX := by decide
  have hfull : ¬ saturatingAdd32 s.voterRegistryLen (s.newVoters [] addresses).length ≤
      MAX_ELIGIBLE_VOTERS := by
    rw [hs.length_eq, length_newVoters hs, saturatingAdd32]
    omega
  unfold State.addVotersBatch
  dsimp only
  rw [ensure, if_neg hfull]
  rfl

end Entering

/-! ## Removing a voter -/

section Removing

variable {s s' : State} {holder : Address}

theorem findVoter_eq_some {bi offset : Nat} (h : s.findVoter holder = some (bi, offset)) :
    bi < s.getVoterBucketCount ∧ ∃ c d, s.getVoterBucket bi = c ++ holder :: d ∧
      c.length = offset := by
  unfold State.findVoter at h
  obtain ⟨i, hi, hfound⟩ := List.exists_of_findSome?_eq_some h
  rw [Option.map_eq_some_iff] at hfound
  obtain ⟨j, hj, heq⟩ := hfound
  cases heq
  refine ⟨List.mem_range.mp hi, (s.getVoterBucket bi).take offset,
    (s.getVoterBucket bi).drop (offset + 1), ?_⟩
  obtain ⟨hlt, hget, -⟩ := List.idxOf?_eq_some_iff.mp hj
  have hsplit := List.drop_eq_getElem_cons hlt
  rw [hget] at hsplit
  refine ⟨?_, by rw [List.length_take]; omega⟩
  rw [← hsplit, List.take_append_drop]

theorem not_mem_of_findVoter (h : s.findVoter holder = none) : holder ∉ s.getVoters := by
  unfold State.findVoter at h
  rw [List.findSome?_eq_none_iff] at h
  intro hmem
  obtain ⟨i, hi, hin⟩ := List.mem_flatMap.mp hmem
  have hnone := h i hi
  rw [Option.map_eq_none_iff, List.idxOf?_eq_none_iff] at hnone
  exact hnone hin

theorem getLast?_getVoters {c : Nat} {t : Address} (hc : s.getVoterBucketCount = c + 1)
    (ht : (s.getVoterBucket c)[(s.getVoterBucket c).length - 1]? = some t) :
    s.getVoters.getLast? = some t := by
  rw [getVoters_eq_flatten, buckets_snoc hc, List.flatten_append, List.flatten_singleton,
    List.getLast?_append, List.getLast?_eq_getElem?, ht]
  rfl

/-- The buckets after the swap: the holder's place is taken by the last voter, who leaves the
last bucket. -/
theorem buckets_removed {bi c : Nat} {before after : List Address} {t : Address}
    (hc : s.getVoterBucketCount = c + 1) (hbi : bi < s.getVoterBucketCount)
    (hb : s.getVoterBucket bi = before ++ holder :: after) :
    (if bi = c then
        s.storeLastBucket c (((s.getVoterBucket c).set before.length t).take
          ((s.getVoterBucket c).length - 1))
      else (s.set (.voterBucket bi) ((s.getVoterBucket bi).set before.length t)).storeLastBucket c
        ((s.getVoterBucket c).take ((s.getVoterBucket c).length - 1))).buckets =
      pop (s.buckets.set bi (before ++ t :: after)) := by
  have hset : (s.getVoterBucket bi).set before.length t = before ++ t :: after := by
    rw [hb, List.set_append_right _ _ (le_refl _), Nat.sub_self, List.set_cons_zero]
  have hsnoc := buckets_snoc hc
  split
  · rename_i heq
    subst heq
    have hlen : (s.getVoterBucket bi).length = (before ++ t :: after).length := by
      rw [hb]
      simp
    rw [buckets_storeLastBucket hc, hset, hlen, ← List.dropLast_eq_take, hsnoc,
      List.set_append_right _ _ (by simp), List.dropLast_concat]
    simp only [List.length_map, List.length_range, Nat.sub_self, List.set_cons_zero]
    rw [pop_snoc]
  · rename_i hne
    have hc' : (s.set (.voterBucket bi) (before ++ t :: after)).getVoterBucketCount = c + 1 := by
      simpa [State.getVoterBucketCount] using hc
    have hlt : bi < ((List.range c).map s.getVoterBucket).length := by
      rw [List.length_map, List.length_range]
      omega
    rw [hset, buckets_storeLastBucket hc', buckets_overwrite, hsnoc, ← List.dropLast_eq_take,
      List.set_append_left _ _ hlt, List.dropLast_concat, pop_snoc]

/-- The swap writes buckets and their count only. -/
theorem get_removed {bi c : Nat} {b₁ b₂ b₃ : List Address} {k : DataKey}
    (hk : ∀ i, k ≠ .voterBucket i) (hk' : k ≠ .voterBucketCount) :
    (if bi = c then s.storeLastBucket c b₁
      else (s.set (.voterBucket bi) b₂).storeLastBucket c b₃).get k = s.get k := by
  unfold State.storeLastBucket
  split <;> split <;> simp [hk, hk']

theorem lastBucket_ne_nil {c : Nat} (hs : s.RegistrySound) (hc : s.getVoterBucketCount = c + 1) :
    s.getVoterBucket c ≠ [] := by
  have hpacked := hs.packed
  rw [buckets_snoc hc] at hpacked
  obtain hnil | ⟨front, last, heq, -, hne, -⟩ := hpacked
  · simp at hnil
  · obtain ⟨-, hlast⟩ := List.append_inj' heq rfl
    rw [List.singleton_inj.mp hlast]
    exact hne

theorem registrySound_removed {s₁ : State} {before after : List Address} (hs : s.RegistrySound)
    (hvoters : s.getVoters = before ++ holder :: after) (hkeys : ∀ k, (∀ i, k ≠ .voterBucket i) →
      k ≠ .voterBucketCount → s₁.get k = s.get k)
    (hpacked : Packed VOTER_BUCKET_SIZE s₁.buckets) (hperm : s₁.getVoters.Perm (before ++ after)) :
    ((s₁.remove (.voterMember holder)).set .voterRegistryLen
      ((s₁.remove (.voterMember holder)).voterRegistryLen - 1)).RegistrySound ∧
    ∀ a, a ∈ s₁.getVoters ↔ a ∈ s.getVoters ∧ a ≠ holder := by
  have hnodup := hs.nodup
  rw [hvoters, List.nodup_middle, List.nodup_cons] at hnodup
  have hmem : ∀ a, a ∈ s₁.getVoters ↔ a ∈ s.getVoters ∧ a ≠ holder := by
    intro a
    rw [hperm.mem_iff, hvoters, List.mem_append, List.mem_append, List.mem_cons]
    have hout := hnodup.1
    rw [List.mem_append] at hout
    grind
  have hlen : s.getVoters.length = s₁.getVoters.length + 1 := by
    rw [hperm.length_eq, hvoters]
    simp only [List.length_append, List.length_cons]
    omega
  have hcap := hs.within_cap
  refine ⟨⟨?_, ?_, ?_, ?_, fun a => ?_, ?_⟩, hmem⟩
  · rw [State.get_set_of_ne _ _ (by simp), State.get_remove_of_ne _ (by simp),
      hkeys _ (by simp) (by simp)]
    exact hs.migrated
  · rw [buckets_unmark]
    exact hpacked
  · rw [getVoters_eq_flatten, buckets_unmark, ← getVoters_eq_flatten]
    exact hperm.nodup_iff.mpr hnodup.2
  · rw [getVoters_eq_flatten, buckets_unmark, ← getVoters_eq_flatten]
    have hreg := hs.length_eq
    simp only [State.voterRegistryLen, State.get_set_self, Option.getD_some] at hreg ⊢
    rw [State.get_remove_of_ne _ (by simp), hkeys _ (by simp) (by simp), hreg]
    omega
  · rw [getVoters_eq_flatten, buckets_unmark, ← getVoters_eq_flatten, hmem, ← hs.contains_iff]
    simp only [State.voterRegistryContains]
    by_cases ha : a = holder
    · subst ha
      simp
    · rw [State.get_set_of_ne _ _ (by simp), State.get_remove_of_ne _ (by simpa using ha),
        hkeys _ (by simp) (by simp)]
      simp [ha]
  · rw [getVoters_eq_flatten, buckets_unmark, ← getVoters_eq_flatten]
    omega

/-- **`remove_voter` removes the holder** and nobody else, and never traps. -/
theorem removeVoter_exact (hs : s.RegistrySound) (holder : Address) :
    ∃ s', s.removeVoter holder = .ok s' ∧ s'.RegistrySound ∧
      ∀ a, a ∈ s'.getVoters ↔ a ∈ s.getVoters ∧ a ≠ holder := by
  by_cases hin : holder ∈ s.getVoters
  case neg =>
    have hflag : s.voterRegistryContains holder = false := by
      rw [← Bool.not_eq_true, hs.contains_iff]
      exact hin
    refine ⟨s, by rw [State.removeVoter, if_pos hflag], hs, fun a => ?_⟩
    constructor
    · intro ha
      refine ⟨ha, ?_⟩
      rintro rfl
      exact hin ha
    · exact And.left
  case pos =>
    have hflag : ¬ s.voterRegistryContains holder = false := by
      rw [Bool.not_eq_false, hs.contains_iff]
      exact hin
    unfold State.removeVoter
    rw [if_neg hflag]
    split
    · rename_i hnone
      exact absurd hin (not_mem_of_findVoter hnone)
    · rename_i bi offset hfound
      obtain ⟨hbi, before, after, hb, rfl⟩ := findVoter_eq_some hfound
      obtain ⟨c, hc⟩ : ∃ c, s.getVoterBucketCount = c + 1 := ⟨s.getVoterBucketCount - 1, by omega⟩
      have hlast : s.getVoterBucketCount - 1 = c := by omega
      have hpos := List.length_pos_iff.mpr (lastBucket_ne_nil hs hc)
      obtain ⟨tail, htail⟩ : ∃ tail,
          (s.getVoterBucket c)[(s.getVoterBucket c).length - 1]? = some tail :=
        ⟨_, List.getElem?_eq_getElem (by omega)⟩
      have hgetLast := getLast?_getVoters hc htail
      rw [getVoters_eq_flatten] at hgetLast
      have hplace : s.buckets[bi]? = some (before ++ holder :: after) := by
        rw [← hb, List.getElem?_eq_getElem (by rwa [length_buckets]), getElem_buckets]
      obtain ⟨front, rest, hflat, hperm⟩ := perm_pop_set hs.packed hplace hgetLast
      have hbuckets := buckets_removed (t := tail) hc hbi hb
      have hpacked :=
        packed_pop (packed_set (c := before ++ tail :: after) hplace (by simp) hs.packed)
      rw [← hbuckets] at hperm hpacked
      rw [← getVoters_eq_flatten] at hperm hflat
      dsimp only
      rw [hlast, htail]
      refine ⟨_, rfl, ?_⟩
      obtain ⟨hsound, hmem⟩ :=
        registrySound_removed hs hflat (fun k hk hk' => get_removed hk hk') hpacked hperm
      refine ⟨hsound, fun a => ?_⟩
      rw [getVoters_eq_flatten, buckets_unmark, ← getVoters_eq_flatten]
      exact hmem a

end Removing

end NiffyInsure
