import NiffyInsure.Pricing

/-!
# The versions of the multiplier tables

Every change of prices is announced with the version of the table it concerns.  The global table
is checked against the stored global table, the table of an asset against the one stored for that
asset, and a changed entry takes the next version of the global table: each writer looks at its own
table only.

* `State.PricingClear`: the writes whose version is new to all the tables.
* `monotone_append_iff`: one announcement keeps the versions increasing when it exceeds them all.
* `versions_monotone_of_reach`: under `PricingClear` the announced versions increase, and the first
  step that is not clear breaks their order.
-/

namespace NiffyInsure

open Machine

/-- The version that an event announces. -/
def Event.tableVersion : Event → Option Nat
  | .multiplierTableUpdated v => some v
  | _ => none

/-- The asset and the version of the table that an event announces for an asset. -/
def Event.assetVersion : Event → Option (Address × Nat)
  | .assetPremiumTableSet asset v false => some (asset, v)
  | _ => none

namespace State

variable (s : State)

/-- The announced versions, in order. -/
def versions : List Nat := s.events.filterMap Event.tableVersion

/-- The tables that were stored for assets, by asset and version, in order. -/
def assetVersions : List (Address × Nat) := s.events.filterMap Event.assetVersion

/-- The versions of the tables that were stored for one asset, in order. -/
def versionsOf (asset : Address) : List Nat :=
  (s.assetVersions.filter fun p => p.1 = asset).map (·.2)

/-- The version of the global table, from the initial one on. -/
def globalVersion : Nat := ((s.get .premiumTable).map (·.version)).getD 1

/-- The announced versions increase, and those of each asset's tables do. -/
structure VersionsMonotone : Prop where
  stream : s.versions.Pairwise (· < ·)
  asset : ∀ asset, (s.versionsOf asset).Pairwise (· < ·)

/-- This asset and version are those of the table that is stored for the asset. -/
def IsPresent (asset : Address) (p : Address × Nat) : Prop :=
  p.1 = asset ∧ (s.get (.assetPremiumTable asset)).map (·.version) = some p.2

instance (asset : Address) (p : Address × Nat) : Decidable (s.IsPresent asset p) :=
  inferInstanceAs (Decidable (_ ∧ _))

/-- The version that a call writes is new to the tables that the call does not check: a global table
exceeds every table stored for an asset; a changed entry finds no asset's table ahead of the global
one, which is not at the last version; and an asset's table exceeds all of them but the asset's
present one, and the global one, which may be the initial one that is not announced. -/
def PricingClear : Label → Prop
  | .call _ (.setting (.updateMultiplierTable t)) => ∀ p ∈ s.assetVersions, p.2 < t.version
  | .call _ (.setting (.adminSetPremiumMultiplier ..)) =>
    s.globalVersion < U32_MAX ∧ ∀ p ∈ s.assetVersions, p.2 ≤ s.globalVersion
  | .call _ (.setting (.adminSetAssetPremiumTable asset (some t))) =>
    (s.globalVersion = 1 ∨ s.globalVersion < t.version) ∧
      ∀ p ∈ s.assetVersions, ¬ s.IsPresent asset p → p.2 < t.version
  | _ => True

end State

/-! ## What one announcement adds -/

section Announcing

variable {s s' : State} {k : DataKey} {v : Option k.Val} {announced : List Event}

theorem versions_eq (s : State) : s.versions =
    (s.eventsOf .pricing).filterMap Event.tableVersion := by
  refine (State.filterMap_eventsOf ?_ s).symm
  intro e he
  cases e <;> first | rfl | exact absurd rfl he

theorem assetVersions_eq (s : State) :
    s.assetVersions = (s.eventsOf .pricing).filterMap Event.assetVersion := by
  refine (State.filterMap_eventsOf ?_ s).symm
  intro e he
  cases e <;> first | rfl | exact absurd rfl he

theorem State.Reprices.versions (h : s.Reprices s' k v announced) :
    s'.versions = s.versions ++ announced.filterMap Event.tableVersion := by
  rw [versions_eq, versions_eq, h.events, List.filterMap_append]

theorem State.Reprices.assetVersions (h : s.Reprices s' k v announced) :
    s'.assetVersions = s.assetVersions ++ announced.filterMap Event.assetVersion := by
  rw [assetVersions_eq, assetVersions_eq, h.events, List.filterMap_append]

theorem globalVersion_of_some {g : MultiplierTable} (h : s.get .premiumTable = some g) :
    s.globalVersion = g.version := by
  rw [State.globalVersion, h]
  rfl

theorem globalVersion_of_same (h : s'.get .premiumTable = s.get .premiumTable) :
    s'.globalVersion = s.globalVersion := by
  rw [State.globalVersion, h]
  rfl

end Announcing

/-! ## The versions under clear steps -/

/-- How the announced versions and the stored tables hang together. -/
structure State.VersionsSound (s : State) : Prop where
  positive : 1 ≤ s.globalVersion
  -- a version that is announced belongs to an asset's table, or to the global table since then
  below : ∀ v ∈ s.versions, v ∈ s.assetVersions.map (·.2) ∨ 1 < v ∧ v ≤ s.globalVersion
  announced : s.globalVersion = 1 ∨ s.globalVersion ∈ s.versions
  assets : (s.assetVersions.map (·.2)).Sublist s.versions

namespace State.VersionsSound

variable {s s' : State}

theorem monotone_iff (h : s.VersionsSound) : s.VersionsMonotone ↔ s.versions.Pairwise (· < ·) := by
  refine ⟨fun hm => hm.stream, fun hp => ⟨hp, fun asset => ?_⟩⟩
  exact hp.sublist ((List.filter_sublist.map _).trans h.assets)

theorem same (h : s.VersionsSound) (hv : s'.versions = s.versions)
    (ha : s'.assetVersions = s.assetVersions) (hg : s'.globalVersion = s.globalVersion) :
    s'.VersionsSound := by
  obtain ⟨hpos, hbelow, hann, hsub⟩ := h
  refine ⟨by rwa [hg], ?_, by rwa [hg, hv], by rwa [ha, hv]⟩
  rwa [hv, ha, hg]

theorem raised (h : s.VersionsSound) {v : Nat} (hlt : s.globalVersion < v)
    (hv : s'.versions = s.versions ++ [v]) (ha : s'.assetVersions = s.assetVersions)
    (hg : s'.globalVersion = v) : s'.VersionsSound := by
  obtain ⟨hpos, hbelow, hann, hsub⟩ := h
  refine ⟨by omega, fun w hw => ?_, .inr ?_, ?_⟩
  · rw [ha, hg]
    rw [hv, List.mem_append, List.mem_singleton] at hw
    rcases hw with hw | rfl
    · exact (hbelow w hw).imp_right fun hw => ⟨hw.1, by omega⟩
    · exact .inr ⟨by omega, le_rfl⟩
  · rw [hg, hv]
    simp
  · rw [ha, hv]
    exact hsub.trans (List.sublist_append_left _ _)

theorem stored (h : s.VersionsSound) {asset : Address} {v : Nat}
    (hv : s'.versions = s.versions ++ [v]) (ha : s'.assetVersions = s.assetVersions ++ [(asset, v)])
    (hg : s'.globalVersion = s.globalVersion) : s'.VersionsSound := by
  obtain ⟨hpos, hbelow, hann, hsub⟩ := h
  refine ⟨by rwa [hg], fun w hw => ?_, ?_, ?_⟩
  · rw [ha, hg, List.map_append, List.mem_append]
    rw [hv, List.mem_append, List.mem_singleton] at hw
    rcases hw with hw | rfl
    · exact (hbelow w hw).imp_left .inl
    · exact .inl (.inr (by simp))
  · rw [hg, hv, List.mem_append]
    exact hann.imp_right .inl
  · rw [ha, hv, List.map_append]
    exact hsub.append (List.Sublist.refl _)

/-- A version exceeds the announced ones if it exceeds the tables of the assets and the global one,
which may be the initial one. -/
theorem lt_of_tables (h : s.VersionsSound) {v : Nat} (ha : ∀ p ∈ s.assetVersions, p.2 < v)
    (hg : s.globalVersion = 1 ∨ s.globalVersion < v) : ∀ w ∈ s.versions, w < v := by
  intro w hw
  rcases h.below w hw with hw | ⟨hone, hle⟩
  · obtain ⟨p, hp, rfl⟩ := List.mem_map.mp hw
    exact ha p hp
  · omega

end State.VersionsSound

/-- **One more version keeps the order when it exceeds the versions announced before.** -/
theorem monotone_append {s s' : State} (h : s.VersionsMonotone) (hs' : s'.VersionsSound) {v : Nat}
    (hv : s'.versions = s.versions ++ [v]) (hlt : ∀ w ∈ s.versions, w < v) :
    s'.VersionsMonotone := by
  rw [hs'.monotone_iff, hv, List.pairwise_append]
  refine ⟨h.stream, List.pairwise_singleton _ v, fun w hw w' hw' => ?_⟩
  rw [List.mem_singleton.mp hw']
  exact hlt w hw

theorem lt_of_monotone_append {s s' : State} (h' : s'.VersionsMonotone) {v : Nat}
    (hv : s'.versions = s.versions ++ [v]) : ∀ w ∈ s.versions, w < v := by
  have hp := h'.stream
  rw [hv, List.pairwise_append] at hp
  exact fun w hw => hp.2.2 w hw v (by simp)

/-- **A step keeps the versions sound under `PricingClear`, and their order exactly then.** -/
theorem versions_of_step {host : Host} {s s' : State} {l : Label}
    (hstep : (contract host).step s l s') (htables : s.TablesSound) (hs : s.VersionsSound)
    (hm : s.VersionsMonotone) :
    (s.PricingClear l → s'.VersionsSound) ∧ (s'.VersionsMonotone ↔ s.PricingClear l) := by
  have hasset : ∀ p ∈ s.assetVersions, p.2 ∈ s.versions := fun p hp =>
    hs.assets.subset (List.mem_map_of_mem hp)
  -- a step that announces nothing and keeps the version of the global table
  have hsilent : s.PricingClear l → s'.versions = s.versions → s'.assetVersions = s.assetVersions →
      s'.globalVersion = s.globalVersion →
      (s.PricingClear l → s'.VersionsSound) ∧ (s'.VersionsMonotone ↔ s.PricingClear l) := by
    intro hl hv ha hg
    have hs' := hs.same hv ha hg
    refine ⟨fun _ => hs', fun _ => hl, fun _ => ?_⟩
    rw [hs'.monotone_iff, hv]
    exact hm.stream
  cases priceStep_of_step hstep with
  | quiet hl hl' hsame hevents =>
    refine hsilent ?_ ?_ ?_ (globalVersion_of_same (hsame .premiumTable rfl))
    · unfold State.PricingClear
      split <;> first | trivial | exact absurd trivial hl'
    · rw [versions_eq, versions_eq, hevents]
    · rw [assetVersions_eq, assetVersions_eq, hevents]
  | initial hnone hsome hw =>
    have hno : s.get .premiumTable = none := by
      rw [← Option.isNone_iff_eq_none, ← Option.not_isSome, htables.initialised, hnone]
      rfl
    refine hsilent trivial (hw.versions.trans (List.append_nil _))
      (hw.assetVersions.trans (List.append_nil _)) ?_
    rw [globalVersion_of_some (hw.get_self rfl), State.globalVersion, hno]
    rfl
  | @table env t _ current hcurrent hversion hsound hw =>
    rw [← globalVersion_of_some hcurrent] at hversion
    have hv : s'.versions = s.versions ++ [t.version] := hw.versions
    have hs' := hs.raised hversion hv (hw.assetVersions.trans (List.append_nil _))
      (globalVersion_of_some (hw.get_self rfl))
    refine ⟨fun _ => hs', fun hm' p hp => lt_of_monotone_append hm' hv _ (hasset p hp), fun hl =>
      ?_⟩
    exact monotone_append hm hs' hv (hs.lt_of_tables hl (.inr hversion))
  | @entry env key value _ current hcurrent hsound hw =>
    have hv : s'.versions = s.versions ++ [saturatingAdd32 s.globalVersion 1] := by
      rw [globalVersion_of_some hcurrent]
      exact hw.versions
    have hg : s'.globalVersion = saturatingAdd32 s.globalVersion 1 := by
      rw [globalVersion_of_some (hw.get_self rfl), globalVersion_of_some hcurrent,
        MultiplierTable.version_setEntry]
    have hs' : s.globalVersion < U32_MAX → s'.VersionsSound := fun hlt =>
      hs.raised (by unfold saturatingAdd32; omega) hv
        (hw.assetVersions.trans (List.append_nil _)) hg
    refine ⟨fun hl => hs' hl.1, fun hm' => ?_, fun hl => ?_⟩
    · have hlt := lt_of_monotone_append hm' hv
      unfold saturatingAdd32 at hlt
      refine ⟨?_, fun p hp => ?_⟩
      · rcases hs.announced with h1 | hmem
        · rw [h1]
          decide
        · have := hlt _ hmem
          omega
      · have := hlt _ (hasset p hp)
        omega
    · have hnext : saturatingAdd32 s.globalVersion 1 = s.globalVersion + 1 := by
        have := hl.1
        unfold saturatingAdd32
        omega
      refine monotone_append hm (hs' hl.1) hv (hs.lt_of_tables (fun p hp => ?_) ?_)
      · have := hl.2 p hp
        omega
      · omega
  | @asset env asset t _ hsound hversion hw =>
    have hv : s'.versions = s.versions ++ [t.version] := hw.versions
    have hs' := hs.stored hv hw.assetVersions
      (globalVersion_of_same (hw.get_of_ne rfl (by simp)))
    refine ⟨fun _ => hs', fun hm' => ?_, fun hl => ?_⟩
    · have hlt := lt_of_monotone_append hm' hv
      exact ⟨hs.announced.imp_right (hlt _), fun p hp _ => hlt _ (hasset p hp)⟩
    · refine monotone_append hm hs' hv (hs.lt_of_tables (fun p hp => ?_) hl.1)
      by_cases hpresent : s.IsPresent asset p
      -- the call has compared its version with the asset's present one
      · obtain ⟨e, he, heq⟩ := Option.map_eq_some_iff.mp hpresent.2
        exact heq ▸ hversion e he
      · exact hl.2 p hp hpresent
  | @removal env asset _ hw =>
    refine hsilent trivial ?_ ?_ (globalVersion_of_same (hw.get_of_ne rfl (by simp)))
    · exact hw.versions.trans (List.append_nil _)
    · exact hw.assetVersions.trans (List.append_nil _)

/-! ## Along a run -/

theorem versionsSound_of_reach {host : Host} {s : State}
    (h : (loggedContract host).Reach State.PricingClear s) :
    s.VersionsSound ∧ s.VersionsMonotone := by
  refine h.invariant_with (I := fun s => s.VersionsSound ∧ s.VersionsMonotone)
    (J := State.TablesSound) (fun s hs => tablesSound_of_reach (reach_of_logged hs).to_always) ?_ ?_
  · rintro s ⟨hs, hlog⟩
    have hg : s.globalVersion = 1 := by
      rw [State.globalVersion, State.Fresh.get host hs]
      rfl
    have hv : s.versions = [] := by
      rw [State.versions, hlog]
      rfl
    have ha : s.assetVersions = [] := by
      rw [State.assetVersions, hlog]
      rfl
    have hsound : s.VersionsSound := by
      refine ⟨hg.ge, fun v hmem => ?_, .inl hg, ?_⟩
      · rw [hv] at hmem
        cases hmem
      · rw [ha, hv]
        exact List.Sublist.refl _
    refine ⟨hsound, hsound.monotone_iff.mpr ?_⟩
    rw [hv]
    exact .nil
  · intro s l s' htables hl hstep hs
    obtain ⟨hsound, hiff⟩ := versions_of_step hstep htables hs.1 hs.2
    exact ⟨hsound hl, hiff.mpr hl⟩

/-- **The announced versions increase as long as every write is clear of the other tables.**  In
every run whose steps are clear the announced versions and those of each asset's tables strictly
increase, and a further step keeps them so exactly when it is clear. -/
theorem versions_monotone_of_reach {host : Host} {s : State}
    (h : (loggedContract host).Reach State.PricingClear s) :
    s.VersionsMonotone ∧ ∀ l s', (loggedContract host).step s l s' →
      (s'.VersionsMonotone ↔ s.PricingClear l) := by
  obtain ⟨hs, hm⟩ := versionsSound_of_reach h
  refine ⟨hm, fun l s' hstep => ?_⟩
  exact (versions_of_step hstep (tablesSound_of_reach (reach_of_logged h).to_always) hs hm).2

/-- `PricingClear`, computed. -/
def pricingClearCheck (s : State) : Label → Bool
  | .call _ (.setting (.updateMultiplierTable t)) => s.assetVersions.all fun p => p.2 < t.version
  | .call _ (.setting (.adminSetPremiumMultiplier ..)) =>
    s.globalVersion < U32_MAX && s.assetVersions.all fun p => p.2 ≤ s.globalVersion
  | .call _ (.setting (.adminSetAssetPremiumTable asset (some t))) =>
    (s.globalVersion == 1 || s.globalVersion < t.version) &&
      s.assetVersions.all fun p => decide (s.IsPresent asset p) || p.2 < t.version
  | _ => true

theorem pricingClear_of_check (s : State) (l : Label) (h : pricingClearCheck s l = true) :
    s.PricingClear l := by
  unfold pricingClearCheck at h
  unfold State.PricingClear
  split at h
  · simpa using h
  · simpa using h
  · simp only [Bool.and_eq_true, Bool.or_eq_true, beq_iff_eq, List.all_eq_true,
      decide_eq_true_eq] at h
    exact ⟨h.1, fun p hp hpresent => (h.2 p hp).resolve_left hpresent⟩
  · trivial

/-- An asset's table with this version. -/
def demoAssetTable (version : Nat) : Label :=
  demoCall (.setting (.adminSetAssetPremiumTable assetAddress
    (some { defaultMultiplierTable with version })))

/-- An entry of the global table is changed, the asset gets a table and a newer one, and the global
table is replaced. -/
theorem versions_monotone_demo : ∃ s : State, s.versions = [2, 7, 8, 9] ∧
    s.versionsOf assetAddress = [7, 8] ∧ s.VersionsMonotone ∧
    ∀ l s', (loggedContract demoHost).step s l s' → (s'.VersionsMonotone ↔ s.PricingClear l) := by
  obtain ⟨s, hreach, hval⟩ := exists_logged_of_follow pricingClear_of_check (deployed 0)
    [demoInit, demoCall (.setting (.adminSetPremiumMultiplier (.region .high) 50000)),
      .closeLedger 101000, demoAssetTable 7, .closeLedger 201000, demoAssetTable 8,
      .closeLedger 301000, demoCall (.setting (.updateMultiplierTable
        { defaultMultiplierTable with version := 9 }))]
    (f := fun s => (s.versions, s.versionsOf assetAddress)) (a := ([2, 7, 8, 9], [7, 8]))
    (fresh_deployed (by decide)) rfl (by simp [demoInit, demoAssetTable]) (by decide +kernel)
  simp only [Prod.mk.injEq] at hval
  exact ⟨s, hval.1, hval.2, versions_monotone_of_reach hreach⟩

/-- The asset's table is removed, and a table with an older version is stored for it; then an
entry of the global table is changed. -/
theorem versions_not_monotone : ∃ s : State, (loggedContract demoHost).Reach always s ∧
    s.versions = [7, 3, 2] ∧ s.versionsOf assetAddress = [7, 3] ∧ ¬ s.VersionsMonotone := by
  obtain ⟨s, hreach, hval⟩ := exists_logged_of_follow always_of_noCheck (deployed 0)
    [demoInit, demoAssetTable 7, .closeLedger 101000,
      demoCall (.setting (.adminSetAssetPremiumTable assetAddress none)), .closeLedger 201000,
      demoAssetTable 3, .closeLedger 301000,
      demoCall (.setting (.adminSetPremiumMultiplier (.region .high) 50000))]
    (f := fun s => (s.versions, s.versionsOf assetAddress)) (a := ([7, 3, 2], [7, 3]))
    (fresh_deployed (by decide)) rfl (by simp [demoInit, demoAssetTable]) (by decide +kernel)
  simp only [Prod.mk.injEq] at hval
  refine ⟨s, hreach, hval.1, hval.2, fun hm => ?_⟩
  have hp := hm.stream
  rw [hval.1] at hp
  revert hp
  decide

end NiffyInsure
