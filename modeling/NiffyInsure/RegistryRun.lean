import NiffyInsure.RegistrySpec
import NiffyInsure.Frame.Calls
import NiffyInsure.Trace

/-!
# Runs of the registry

The functions of the registry as one machine, each with the lazy migration in front of it.  A
run starts without buckets: with no voter, or with the vector of an older deployment.

* `migrate_exact`: what the migration makes of the vector.
* `setVoters_exact`: the registry rewritten as a whole.
* `registry_exact_of_steps`: the four places of the registry agree in every run, and each
  operation adds or removes exactly what it names.
* `registry_over_cap`: the migration does not look at the cap.
-/

namespace NiffyInsure

open Bucketed Machine

/-! ## Starting over -/

section Reset

variable {s s' : State}

theorem registrySound_reset (hlegacy : s.get .voters = none)
    (hflags : ∀ a, s.voterRegistryContains a = false) : s.resetVoterCounts.RegistrySound := by
  unfold State.resetVoterCounts
  refine registrySound_empty ?_ ?_ ?_ fun a => ?_
  · simpa using hlegacy
  · simp [State.getVoterBucketCount]
  · simp [State.voterRegistryLen]
  · simpa [State.voterRegistryContains] using hflags a

theorem getVoters_reset (s : State) : s.resetVoterCounts.getVoters = [] := by
  simp [State.getVoters, State.resetVoterCounts, State.getVoterBucketCount]

theorem get_foldl_unmark (k : DataKey) :
    ∀ (l : List Address) (s : State),
      (l.foldl (fun t a => t.remove (.voterMember a)) s).get k =
        if ∃ a ∈ l, k = .voterMember a then none else s.get k := by
  intro l
  induction l with
  | nil =>
    intro s
    simp
  | cons b rest ih =>
    intro s
    rw [List.foldl_cons, ih]
    by_cases hk : k = .voterMember b
    · subst hk
      simp
    · rw [State.get_remove_of_ne _ hk]
      simp [hk]

theorem contains_clearBucket {i : Nat} {a : Address} :
    (s.clearBucket i).voterRegistryContains a = true ↔
      s.voterRegistryContains a = true ∧ a ∉ s.getVoterBucket i := by
  simp only [State.voterRegistryContains, State.clearBucket]
  rw [State.get_remove_of_ne _ (by simp), get_foldl_unmark]
  by_cases ha : a ∈ s.getVoterBucket i
  · rw [if_pos ⟨a, ha, rfl⟩]
    simp [ha]
  · rw [if_neg (by rintro ⟨b, hb, heq⟩; cases heq; exact ha hb)]
    simp [ha]

theorem get_clearBucket {i : Nat} {k : DataKey} (hk : ∀ a, k ≠ .voterMember a)
    (hk' : k ≠ .voterBucket i) : (s.clearBucket i).get k = s.get k := by
  rw [State.clearBucket, State.get_remove_of_ne _ hk', get_foldl_unmark, if_neg]
  rintro ⟨a, -, heq⟩
  exact hk a heq

theorem contains_foldl_clearBucket {a : Address} :
    ∀ (is : List Nat) (s : State), is.Nodup →
      (is.foldl State.clearBucket s).voterRegistryContains a = true →
      s.voterRegistryContains a = true ∧ ∀ i ∈ is, a ∉ s.getVoterBucket i := by
  intro is
  induction is with
  | nil =>
    intro s _ h
    exact ⟨h, by simp⟩
  | cons i rest ih =>
    intro s hnodup h
    rw [List.nodup_cons] at hnodup
    obtain ⟨hflag, hrest⟩ := ih _ hnodup.2 h
    rw [contains_clearBucket] at hflag
    refine ⟨hflag.1, fun j hj => ?_⟩
    rcases List.mem_cons.mp hj with rfl | hj'
    · exact hflag.2
    · have hne : j ≠ i := fun heq => hnodup.1 (heq ▸ hj')
      have hsame := hrest j hj'
      rwa [State.getVoterBucket, get_clearBucket (by simp) (by simpa using hne)] at hsame

theorem voters_foldl_clearBucket :
    ∀ (is : List Nat) (s : State), (is.foldl State.clearBucket s).get .voters = s.get .voters := by
  intro is
  induction is with
  | nil =>
    intro s
    rfl
  | cons i rest ih =>
    intro s
    rw [List.foldl_cons, ih, get_clearBucket (by simp) (by simp)]

theorem registrySound_foldl_enter :
    ∀ (voters : List Address) (s : State), s.RegistrySound →
      s.getVoters.length + voters.length ≤ MAX_ELIGIBLE_VOTERS →
      (voters.foldl (fun t a => if t.voterRegistryContains a then t else t.appendVoterUnchecked a)
        s).RegistrySound ∧
      ∀ a, a ∈ (voters.foldl (fun t a =>
        if t.voterRegistryContains a then t else t.appendVoterUnchecked a) s).getVoters ↔
          a ∈ s.getVoters ∨ a ∈ voters := by
  intro voters
  induction voters with
  | nil =>
    intro s hs _
    exact ⟨hs, by simp⟩
  | cons b rest ih =>
    intro s hs hroom
    rw [List.length_cons] at hroom
    rw [List.foldl_cons]
    split
    · rename_i hin
      obtain ⟨hsound, hmem⟩ := ih s hs (by omega)
      refine ⟨hsound, fun a => ?_⟩
      rw [hs.contains_iff] at hin
      rw [hmem, List.mem_cons]
      grind
    · rename_i hout
      rw [hs.contains_iff] at hout
      obtain ⟨hsound, hmem⟩ := ih _ (registrySound_append hs hout (by omega)) (by
        rw [getVoters_append, List.length_append, List.length_singleton]
        omega)
      refine ⟨hsound, fun a => ?_⟩
      rw [hmem, getVoters_append, List.mem_append, List.mem_singleton, List.mem_cons, or_assoc]

/-- **`set_voters` makes the registry the given addresses.** -/
theorem setVoters_exact {voters : List Address} (hs : s.RegistrySound)
    (hroom : voters.length ≤ MAX_ELIGIBLE_VOTERS) :
    (s.setVoters voters).RegistrySound ∧ ∀ a, a ∈ (s.setVoters voters).getVoters ↔ a ∈ voters := by
  have hreset : ((List.range s.getVoterBucketCount).foldl State.clearBucket
      s).resetVoterCounts.RegistrySound := by
    refine registrySound_reset ?_ fun a => ?_
    · rw [voters_foldl_clearBucket, hs.migrated]
    · rw [← Bool.not_eq_true]
      intro hflag
      obtain ⟨hin, hout⟩ := contains_foldl_clearBucket _ s List.nodup_range hflag
      obtain ⟨i, hi, ha⟩ := List.mem_flatMap.mp ((hs.contains_iff a).mp hin)
      exact hout i hi ha
  obtain ⟨hsound, hmem⟩ := registrySound_foldl_enter voters _ hreset (by
    rw [getVoters_reset, List.length_nil]
    omega)
  refine ⟨hsound, fun a => (hmem a).trans ?_⟩
  rw [getVoters_reset]
  simp

end Reset

/-! ## The migration -/

/-- No buckets yet: an empty registry, or the vector of an older deployment, in which no address
is repeated. -/
structure State.Unbucketed (s : State) : Prop where
  count : s.get .voterBucketCount = none
  bucket : ∀ i, s.get (.voterBucket i) = none
  member : ∀ a, s.get (.voterMember a) = none
  len : s.get .voterRegistryLen = none
  nodup : ∀ legacy, s.get .voters = some legacy → legacy.Nodup

/-- The voters that `get_voters` returns, the migration included. -/
def State.readVoters (s : State) : List Address := s.migrateLegacyVotersIfNeeded.getVoters

section Migration

variable {s : State}

theorem migrate_of_none (h : s.get .voters = none) : s.migrateLegacyVotersIfNeeded = s := by
  simp [State.migrateLegacyVotersIfNeeded, h]

theorem State.RegistrySound.migrate (hs : s.RegistrySound) : s.migrateLegacyVotersIfNeeded = s :=
  migrate_of_none hs.migrated

theorem State.RegistrySound.readVoters (hs : s.RegistrySound) : s.readVoters = s.getVoters := by
  rw [State.readVoters, hs.migrate]

/-- The migration of a registry that has no buckets appends the vector to the empty registry. -/
theorem migrate_of_some {legacy : List Address} (hs : s.Unbucketed)
    (h : s.get .voters = some legacy) :
    s.migrateLegacyVotersIfNeeded =
      legacy.foldl State.appendVoterUnchecked (s.remove .voters).resetVoterCounts := by
  have hcount : (s.remove .voters).getVoterBucketCount = 0 := by
    simp [State.getVoterBucketCount, hs.count]
  simp only [State.migrateLegacyVotersIfNeeded, h, hcount, List.range_zero, List.foldl_nil]

/-- **The migration keeps the vector**, in its order. -/
theorem readVoters_of_some {legacy : List Address} (hs : s.Unbucketed)
    (h : s.get .voters = some legacy) : s.readVoters = legacy := by
  rw [State.readVoters, migrate_of_some hs h, getVoters_foldl_append, getVoters_reset,
    List.nil_append]

theorem registrySound_migrate (hs : s.Unbucketed)
    (hfits : ∀ legacy, s.get .voters = some legacy → legacy.length ≤ MAX_ELIGIBLE_VOTERS) :
    s.migrateLegacyVotersIfNeeded.RegistrySound := by
  cases h : s.get .voters with
  | none =>
    rw [migrate_of_none h]
    refine registrySound_empty h ?_ ?_ fun a => ?_
    · simp [State.getVoterBucketCount, hs.count]
    · simp [State.voterRegistryLen, hs.len]
    · simp [State.voterRegistryContains, hs.member]
  | some legacy =>
    rw [migrate_of_some hs h]
    refine registrySound_foldl_append legacy _ ?_ (hs.nodup legacy h) ?_ ?_
    · refine registrySound_reset (by simp) fun a => ?_
      simp [State.voterRegistryContains, hs.member]
    · rw [getVoters_reset]
      simp
    · rw [getVoters_reset, List.length_nil, Nat.zero_add]
      exact hfits legacy h

end Migration

/-! ## The machine -/

/-- The functions of the registry; `read` stands for the ones that only read it. -/
inductive RegistryOp where
  | addVoter (holder : Address)
  | votersEnsureHolder (holder : Address)
  | addVotersBatch (addresses : List Address)
  | removeVoter (holder : Address)
  | setVoters (voters : List Address)
  | read

/-- Each function runs the migration first. -/
def RegistryOp.exec (s : State) : RegistryOp → Result State
  | .addVoter holder => s.migrateLegacyVotersIfNeeded.addVoter holder
  | .votersEnsureHolder holder => s.migrateLegacyVotersIfNeeded.votersEnsureHolder holder
  | .addVotersBatch addresses => dropValue (s.migrateLegacyVotersIfNeeded.addVotersBatch addresses)
  | .removeVoter holder => s.migrateLegacyVotersIfNeeded.removeVoter holder
  | .setVoters voters => .ok (s.migrateLegacyVotersIfNeeded.setVoters voters)
  | .read => .ok s.migrateLegacyVotersIfNeeded

/-- The registry on its own.  A failing call changes nothing and is no step. -/
def registry : Machine State RegistryOp where
  init := State.Unbucketed
  step s op s' := op.exec s = .ok s'

/-- `set_voters` is given at most as many addresses as the registry may hold. -/
def SetsWithinCap (_ : State) : RegistryOp → Prop
  | .setVoters voters => voters.length ≤ MAX_ELIGIBLE_VOTERS
  | _ => True

/-- Each operation adds and removes exactly what it names. -/
structure State.OpsExact (s : State) : Prop where
  removeVoter : ∀ holder, ∃ s', (RegistryOp.removeVoter holder).exec s = .ok s' ∧
    ∀ a, a ∈ s'.readVoters ↔ a ∈ s.readVoters ∧ a ≠ holder
  addVoter : ∀ holder s', (RegistryOp.addVoter holder).exec s = .ok s' →
    ∀ a, a ∈ s'.readVoters ↔ a ∈ s.readVoters ∨ a = holder
  votersEnsureHolder : ∀ holder s', (RegistryOp.votersEnsureHolder holder).exec s = .ok s' →
    ∀ a, a ∈ s'.readVoters ↔ a ∈ s.readVoters ∨ a = holder
  addVotersBatch : ∀ addresses s', (RegistryOp.addVotersBatch addresses).exec s = .ok s' →
    ∃ added : List Address, s'.readVoters = s.readVoters ++ added ∧
      ∀ a, a ∈ added ↔ a ∈ addresses ∧ a ∉ s.readVoters
  overCap : ∀ addresses : List Address, MAX_ELIGIBLE_VOTERS <
      s.readVoters.length + (addresses.toFinset \ s.readVoters.toFinset).card →
    (RegistryOp.addVotersBatch addresses).exec s = .error (.error .voterRegistryFull)

section Runs

variable {s s' : State}

theorem opsExact_of_sound (hs : s.migrateLegacyVotersIfNeeded.RegistrySound) : s.OpsExact where
  removeVoter holder := by
    obtain ⟨s', h, hs', hmem⟩ := removeVoter_exact hs holder
    refine ⟨s', h, fun a => ?_⟩
    rw [hs'.readVoters]
    exact hmem a
  addVoter holder s' h := by
    obtain ⟨hs', hmem⟩ := addVoter_exact hs h
    rw [hs'.readVoters]
    exact hmem
  votersEnsureHolder holder s' h := by
    obtain ⟨hs', hmem⟩ := votersEnsureHolder_exact hs h
    rw [hs'.readVoters]
    exact hmem
  addVotersBatch addresses s' h := by
    obtain ⟨added, h⟩ := dropValue_eq_ok.mp h
    obtain ⟨hs', hvoters, -, hmem⟩ := addVotersBatch_exact hs h
    refine ⟨added, ?_, hmem⟩
    rw [hs'.readVoters]
    exact hvoters
  overCap addresses hover := by
    rw [RegistryOp.exec, addVotersBatch_full hs hover]
    rfl

theorem registrySound_of_op {op : RegistryOp} (hok : SetsWithinCap s op) (h : op.exec s = .ok s')
    (hs : s.migrateLegacyVotersIfNeeded.RegistrySound) :
    s'.migrateLegacyVotersIfNeeded.RegistrySound := by
  suffices hs' : s'.RegistrySound by rwa [hs'.migrate]
  cases op with
  | addVoter holder => exact (addVoter_exact hs h).1
  | votersEnsureHolder holder => exact (votersEnsureHolder_exact hs h).1
  | addVotersBatch addresses =>
    obtain ⟨added, h⟩ := dropValue_eq_ok.mp h
    exact (addVotersBatch_exact hs h).1
  | removeVoter holder =>
    obtain ⟨t, ht, hsound, -⟩ := removeVoter_exact hs holder
    rw [RegistryOp.exec, ht] at h
    cases h
    exact hsound
  | setVoters voters =>
    cases h
    exact (setVoters_exact hs hok).1
  | read =>
    cases h
    exact hs

/-- **The registry keeps its voters.**  In every run from the empty registry, or from the vector
of an older deployment that fits, the buckets, their count, the length and the flags say the same,
and every operation adds or removes exactly what it names. -/
theorem registry_exact_of_steps {s₀ : State} (h₀ : registry.init s₀)
    (hfits : ∀ legacy, s₀.get .voters = some legacy → legacy.length ≤ MAX_ELIGIBLE_VOTERS)
    (hrun : registry.Steps SetsWithinCap s₀ s) :
    s.migrateLegacyVotersIfNeeded.RegistrySound ∧ s.OpsExact := by
  have hsound : s.migrateLegacyVotersIfNeeded.RegistrySound := by
    refine hrun.invariant (I := fun s => s.migrateLegacyVotersIfNeeded.RegistrySound) ?_
      (registrySound_migrate h₀ hfits)
    intro s op s' hok hstep hs
    exact registrySound_of_op hok hstep hs
  exact ⟨hsound, opsExact_of_sound hsound⟩

/-- A deployment that keeps its voters in one vector. -/
def legacyDeployed (legacy : List Address) : State := (deployed 0).set .voters legacy

theorem unbucketed_legacyDeployed {legacy : List Address} (h : legacy.Nodup) :
    (legacyDeployed legacy).Unbucketed := by
  have hnone : ∀ k, k ≠ .voters → (legacyDeployed legacy).get k = none := by
    intro k hk
    rw [legacyDeployed, State.get_set_of_ne _ _ hk]
    simp [State.get, deployed]
  refine ⟨hnone _ (by simp), fun _ => hnone _ (by simp), fun _ => hnone _ (by simp),
    hnone _ (by simp), fun l hl => ?_⟩
  rw [legacyDeployed, State.get_set_self] at hl
  cases hl
  exact h

/-- A vector of three is migrated by the removal of its first address, and one more enters. -/
theorem registry_exact_legacy :
    ∃ s, registry.Steps SetsWithinCap (legacyDeployed [1, 2, 3]) s ∧ s.readVoters = [3, 2, 4] ∧
      s.migrateLegacyVotersIfNeeded.RegistrySound ∧ s.OpsExact := by
  obtain ⟨s₁, h₁, s₂, h₂, hread⟩ : ∃ s₁, (RegistryOp.removeVoter 1).exec
      (legacyDeployed [1, 2, 3]) = .ok s₁ ∧ ∃ s₂, (RegistryOp.addVoter 4).exec s₁ = .ok s₂ ∧
      s₂.readVoters = [3, 2, 4] := ⟨_, rfl, _, rfl, by decide +kernel⟩
  have hrun : registry.Steps SetsWithinCap (legacyDeployed [1, 2, 3]) s₂ :=
    (Relation.ReflTransGen.single ⟨.removeVoter 1, trivial, h₁⟩).tail ⟨.addVoter 4, trivial, h₂⟩
  refine ⟨s₂, hrun, hread, registry_exact_of_steps ?_ ?_ hrun⟩
  · exact unbucketed_legacyDeployed (by decide)
  · intro legacy hlegacy
    rw [legacyDeployed, State.get_set_self] at hlegacy
    cases hlegacy
    decide

/-- **The migration does not look at the cap**: a vector of 5001 addresses stays 5001 voters. -/
theorem registry_over_cap :
    ∃ s, registry.Reach SetsWithinCap s ∧ s.readVoters.length = 5001 ∧
      ¬ s.readVoters.length ≤ MAX_ELIGIBLE_VOTERS := by
  have hinit : (legacyDeployed (List.range 5001)).Unbucketed :=
    unbucketed_legacyDeployed List.nodup_range
  have hread : (legacyDeployed (List.range 5001)).readVoters = List.range 5001 :=
    readVoters_of_some hinit (State.get_set_self _ _)
  refine ⟨_, .of_init hinit, ?_, ?_⟩
  · rw [hread, List.length_range]
  · rw [hread, List.length_range]
    decide

end Runs

end NiffyInsure
