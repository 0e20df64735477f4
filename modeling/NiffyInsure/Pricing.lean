import NiffyInsure.Frame.Calls
import NiffyInsure.Trace

/-!
# The multiplier tables along a run

Four calls write a multiplier table: `initialize` the default one, `update_multiplier_table` the
global one, `admin_set_premium_multiplier` one entry of it, and `admin_set_asset_premium_table`
the table of one asset, or removes it.  `PriceStep` says what a step of the contract does to the
tables and to the events that announce them.

* `sound_of_validateRows`: a table whose rows were counted and checked has a row for every key.
* `tables_sound_of_reach`: the stored tables are complete and within the bounds, so that a local
  quote does not fail for want of a row.
-/

namespace NiffyInsure

open Machine

/-! ## Sound tables -/

/-- A row for every key, within the bounds. -/
def RowsSound {α : Type} (rows : α → Option Int) : Prop :=
  ∀ k, ∃ m, rows k = some m ∧ MIN_MULTIPLIER ≤ m ∧ m ≤ MAX_MULTIPLIER

structure MultiplierTable.Sound (t : MultiplierTable) : Prop where
  region : RowsSound t.region
  age : RowsSound t.age
  coverage : RowsSound t.coverage
  discount : 0 ≤ t.safetyDiscount ∧ t.safetyDiscount ≤ MAX_SAFETY_DISCOUNT

theorem rowsSound_of_validateTableRows {α : Type} {rows : α → Option Int} {keys : List α}
    {missing bounds : Error} {u : Unit} (hlen : keys.length = 3) (hall : ∀ k, k ∈ keys)
    (h : validateTableRows rows keys missing bounds = .ok u) : RowsSound rows := by
  simp only [validateTableRows, bind_eq_ok, ensure_eq_ok] at h
  obtain ⟨-, hcount, hbounds⟩ := h
  intro k
  have hsome : (rows k).isSome = true :=
    List.countP_eq_length.mp (hcount.trans hlen.symm) k (hall k)
  obtain ⟨m, hm⟩ := Option.isSome_iff_exists.mp hsome
  have hb := List.all_eq_true.mp hbounds k (hall k)
  rw [hm, Option.all_some] at hb
  exact ⟨m, hm, of_decide_eq_true hb⟩

/-- **What the validators let through is complete and within the bounds.** -/
theorem sound_of_validateRows {t : MultiplierTable} {u : Unit} (h : t.validateRows = .ok u) :
    t.Sound := by
  simp only [MultiplierTable.validateRows, bind_eq_ok, ensure_eq_ok] at h
  obtain ⟨-, -, u₁, hregion, u₂, hage, u₃, hcoverage, hdiscount⟩ := h
  refine ⟨?_, ?_, ?_, hdiscount⟩
  · refine rowsSound_of_validateTableRows rfl (fun k => ?_) hregion
    cases k <;> decide
  · refine rowsSound_of_validateTableRows rfl (fun k => ?_) hage
    cases k <;> decide
  · refine rowsSound_of_validateTableRows rfl (fun k => ?_) hcoverage
    cases k <;> decide

theorem sound_defaultMultiplierTable : defaultMultiplierTable.Sound := by
  refine ⟨fun k => ?_, fun k => ?_, fun k => ?_, by decide⟩
  all_goals cases k <;> exact ⟨_, rfl, by decide⟩

theorem RowsSound.set {α : Type} [DecidableEq α] {rows : α → Option Int} (h : RowsSound rows)
    (k : α) {v : Int} (hv : MIN_MULTIPLIER ≤ v ∧ v ≤ MAX_MULTIPLIER) :
    RowsSound fun k' => if k' = k then some v else rows k' := by
  intro k'
  by_cases hk : k' = k
  · exact ⟨v, if_pos hk, hv⟩
  · obtain ⟨m, hm, hb⟩ := h k'
    refine ⟨m, ?_, hb⟩
    rw [← hm]
    exact if_neg hk

theorem MultiplierTable.Sound.setEntry {t : MultiplierTable} (h : t.Sound) {key : MultiplierKey}
    {v : Int} {u : Unit} (hv : key.validate v = .ok u) : (t.setEntry key v).Sound := by
  obtain ⟨hregion, hage, hcoverage, hdiscount⟩ := h
  cases key with
  | region tier => exact ⟨hregion.set tier (ensure_eq_ok.mp hv), hage, hcoverage, hdiscount⟩
  | age band => exact ⟨hregion, hage.set band (ensure_eq_ok.mp hv), hcoverage, hdiscount⟩
  | coverage tier => exact ⟨hregion, hage, hcoverage.set tier (ensure_eq_ok.mp hv), hdiscount⟩
  | safetyDiscount => exact ⟨hregion, hage, hcoverage, ensure_eq_ok.mp hv⟩

@[simp] theorem MultiplierTable.version_setEntry (t : MultiplierTable) (key : MultiplierKey)
    (v : Int) : (t.setEntry key v).version = saturatingAdd32 t.version 1 := by
  cases key <;> rfl

/-! ## Quotes against a sound table -/

theorem checkedMulRatio_eq_error {a n d : Int} {r : Rounding} {e : Fault} (hd : 0 < d)
    (h : checkedMulRatio a n d r = .error e) :
    e = .error .overflow ∨ e = .error .negativePremiumNotSupported ∧ (0 ≤ a → n < 0) := by
  rcases bind_eq_error.mp h with h | ⟨u, -, h⟩
  · obtain ⟨hneg, rfl⟩ := ensure_eq_error.mp h
    exact .inr ⟨rfl, by omega⟩
  rcases bind_eq_error.mp h with h | ⟨product, -, h⟩
  · exact .inl (okOr_eq_error.mp h).2.symm
  rcases bind_eq_error.mp h with h | ⟨u, -, h⟩
  · exact absurd hd.ne' (ensure_eq_error.mp h).1
  cases r with
  | floor => exact absurd h pure_ne_error
  | ceil =>
    dsimp only at h
    split at h
    · exact absurd h pure_ne_error
    · exact .inl (okOr_eq_error.mp h).2.symm

/-- A ratio of numbers that are not negative fails by overflow only. -/
theorem checkedMulRatio_overflow {a n d : Int} {r : Rounding} {e : Fault} (ha : 0 ≤ a) (hn : 0 ≤ n)
    (hd : 0 < d) (h : checkedMulRatio a n d r = .error e) : e = .error .overflow := by
  rcases checkedMulRatio_eq_error hd h with he | ⟨-, hneg⟩
  · exact he
  · exact absurd (hneg ha) (by omega)

theorem checkedMulRatio_nonneg {a n d v : Int} {r : Rounding}
    (h : checkedMulRatio a n d r = .ok v) : 0 ≤ v := by
  simp only [checkedMulRatio, bind_eq_ok, ensure_eq_ok, okOr_eq_ok] at h
  obtain ⟨-, ⟨ha, hn, hd⟩, product, hproduct, -, -, h⟩ := h
  have hprod : 0 ≤ product := by
    rw [(fit128_eq_some.mp hproduct).2]
    exact Int.mul_nonneg ha hn
  have hq : 0 ≤ product / d := Int.ediv_nonneg hprod hd
  cases r with
  | floor =>
    rw [pure_eq_ok] at h
    omega
  | ceil =>
    dsimp only at h
    split at h
    · rw [pure_eq_ok] at h
      omega
    · have hv := (fit128_eq_some.mp (okOr_eq_ok.mp h)).2
      omega

/-- The safety discount takes off what the score has earned, at most half for a score that a
risk input may carry. -/
theorem safetyMultiplier_cases (score : Nat) {d : Int} (hd : 0 ≤ d)
    (hd' : d ≤ MAX_SAFETY_DISCOUNT) : safetyMultiplier score d = .error (.error .overflow) ∨
      ∃ m, safetyMultiplier score d = .ok m ∧ (score ≤ 100 → 0 ≤ m) := by
  cases h : safetyMultiplier score d with
  | error e =>
    left
    rcases bind_eq_error.mp h with h | ⟨earned, -, h⟩
    · rw [checkedMulRatio_overflow (Int.natCast_nonneg score) hd (by decide) h]
    · rw [← (okOr_eq_error.mp h).2]
  | ok m =>
    refine .inr ⟨m, rfl, fun hscore => ?_⟩
    simp only [safetyMultiplier, checkedMulRatio, bind_eq_ok, ensure_eq_ok, okOr_eq_ok,
      pure_eq_ok] at h
    obtain ⟨earned, ⟨-, -, product, hproduct, -, -, rfl⟩, hm⟩ := h
    rw [(fit128_eq_some.mp hm).2, (fit128_eq_some.mp hproduct).2]
    have hmul : (score : Int) * d ≤ 100 * MAX_SAFETY_DISCOUNT :=
      Int.mul_le_mul (by omega) hd' hd (by decide)
    simp only [SCALE, PERCENT_SCALE, MAX_SAFETY_DISCOUNT] at hmul ⊢
    omega

/-- **Against a sound table the premium fails for its base, for a score out of range, or by
overflow.** -/
theorem computePremium_eq_error {t : MultiplierTable} (ht : t.Sound) {input : RiskInput}
    {base : Int} {e : Fault} (h : computePremium input base t = .error e) :
    e = .error .invalidBaseAmount ∧ base ≤ 0 ∨ e = .error .overflow ∨
      e = .error .negativePremiumNotSupported ∧ 100 < input.safetyScore := by
  obtain ⟨regionM, hregion, hr, -⟩ := ht.region input.region
  obtain ⟨ageM, hage, ha, -⟩ := ht.age input.ageBand
  obtain ⟨coverageM, hcoverage, hc, -⟩ := ht.coverage input.coverage
  have hpos : ∀ {m : Int}, MIN_MULTIPLIER ≤ m → 0 ≤ m := fun hm => le_trans (by decide) hm
  have hscale : (0 : Int) < SCALE := by decide
  rcases bind_eq_error.mp h with h | ⟨u, hbase, h⟩
  · obtain ⟨hbase, rfl⟩ := ensure_eq_error.mp h
    exact .inl ⟨rfl, by omega⟩
  rw [ensure_eq_ok] at hbase
  rw [hregion, hage, hcoverage] at h
  obtain hsafety | ⟨safetyM, hsafety, hnonneg⟩ :=
    safetyMultiplier_cases input.safetyScore ht.discount.1 ht.discount.2
  · simp only [okOr, hsafety] at h
    cases h
    exact .inr (.inl rfl)
  simp only [okOr, hsafety] at h
  change (checkedMulRatio base regionM SCALE .ceil >>= _) = _ at h
  rcases bind_eq_error.mp h with h | ⟨afterRegion, h₁, h⟩
  · exact .inr (.inl (checkedMulRatio_overflow hbase.le (hpos hr) hscale h))
  rcases bind_eq_error.mp h with h | ⟨afterAge, h₂, h⟩
  · exact .inr (.inl (checkedMulRatio_overflow (checkedMulRatio_nonneg h₁) (hpos ha) hscale h))
  rcases bind_eq_error.mp h with h | ⟨afterCoverage, h₃, h⟩
  · exact .inr (.inl (checkedMulRatio_overflow (checkedMulRatio_nonneg h₂) (hpos hc) hscale h))
  rcases bind_eq_error.mp h with h | ⟨afterSafety, h₄, h⟩
  · obtain he | ⟨he, hneg⟩ := checkedMulRatio_eq_error hscale h
    · exact .inr (.inl he)
    refine .inr (.inr ⟨he, ?_⟩)
    have hlt := hneg (checkedMulRatio_nonneg h₃)
    by_contra hscore
    have hle := hnonneg (by omega)
    omega
  rcases bind_eq_error.mp h with h | ⟨u', -, h⟩
  · exact absurd (checkedMulRatio_nonneg h₄) (ensure_eq_error.mp h).1
  · exact absurd h pure_ne_error

/-! ## What a step does to the tables -/

/-- The label is the initialisation of the contract. -/
def Label.initializes : Label → Prop
  | .call _ (.setting (.initializeContract ..)) => True
  | _ => False

/-- The label is one of the three calls that set prices. -/
def Label.setsPrices : Label → Prop
  | .call _ (.setting (.updateMultiplierTable _)) => True
  | .call _ (.setting (.adminSetPremiumMultiplier ..)) => True
  | .call _ (.setting (.adminSetAssetPremiumTable ..)) => True
  | _ => False

namespace State

/-- One write of a table, or its removal, with the events that announce it. -/
structure Reprices (s s' : State) (k : DataKey) (v : Option k.Val)
    (announced : List Event) : Prop where
  tables : SameKind .pricing (s.setOrRemove k v) s'
  events : s'.eventsOf .pricing = s.eventsOf .pricing ++ announced

/-- What a step does to the tables and to the events that announce them. -/
inductive PriceStep (s : State) : Label → State → Prop
  | quiet {l s'} : ¬ l.initializes → ¬ l.setsPrices → SameKind .pricing s s' →
      s'.eventsOf .pricing = s.eventsOf .pricing → PriceStep s l s'
  | initial {env admin token s'} : s.get .admin = none → (s'.get .admin).isSome = true →
      s.Reprices s' .premiumTable (some defaultMultiplierTable) [] →
      PriceStep s (.call env (.setting (.initializeContract admin token))) s'
  | table {env t s'} (current : MultiplierTable) : s.get .premiumTable = some current →
      current.version < t.version → t.Sound →
      s.Reprices s' .premiumTable (some t) [.multiplierTableUpdated t.version] →
      PriceStep s (.call env (.setting (.updateMultiplierTable t))) s'
  | entry {env key v s'} (current : MultiplierTable) : s.get .premiumTable = some current →
      (current.Sound → (current.setEntry key v).Sound) →
      s.Reprices s' .premiumTable (some (current.setEntry key v))
        [.multiplierTableUpdated (saturatingAdd32 current.version 1)] →
      PriceStep s (.call env (.setting (.adminSetPremiumMultiplier key v))) s'
  | asset {env asset t s'} : t.Sound →
      (∀ e, s.get (.assetPremiumTable asset) = some e → e.version < t.version) →
      s.Reprices s' (.assetPremiumTable asset) (some t)
        [.assetPremiumTableSet asset t.version false, .multiplierTableUpdated t.version] →
      PriceStep s (.call env (.setting (.adminSetAssetPremiumTable asset (some t)))) s'
  | removal {env asset s'} :
      s.Reprices s' (.assetPremiumTable asset) none [.assetPremiumTableSet asset 0 true] →
      PriceStep s (.call env (.setting (.adminSetAssetPremiumTable asset none))) s'

theorem Reprices.of_write {s s₁ : State} (hf : Frame [.govCooldown] s s₁) (k : DataKey)
    (v : Option k.Val) : s.Reprices (s₁.setOrRemove k v) k v [] := by
  refine ⟨?_, ?_⟩
  · cases v with
    | none => exact (hf.sameKind rfl).remove k
    | some v => exact (hf.sameKind rfl).set k v
  · rw [List.append_nil, ← hf.events .pricing rfl]
    cases v <;> rfl

theorem Reprices.get_self {s s' : State} {k : DataKey} {v : Option k.Val} {announced : List Event}
    (h : s.Reprices s' k v announced) (hk : k.kind = .pricing) : s'.get k = v := by
  rw [h.tables k hk, State.get_setOrRemove_self]

theorem Reprices.get_of_ne {s s' : State} {k k' : DataKey} {v : Option k.Val}
    {announced : List Event} (h : s.Reprices s' k v announced) (hk : k'.kind = .pricing)
    (hne : k' ≠ k) : s'.get k' = s.get k' := by
  rw [h.tables k' hk, s.get_setOrRemove_of_ne v hne]

theorem Reprices.emit {s s' : State} {k : DataKey} {v : Option k.Val} {announced : List Event}
    (h : s.Reprices s' k v announced) {e : Event} (he : e.kind = some .pricing) :
    s.Reprices (s'.emit e) k v (announced ++ [e]) := by
  refine ⟨h.tables, ?_⟩
  rw [State.eventsOf_emit, if_pos he, h.events, List.append_assoc]

end State

section Steps

variable {env : Env} {s s' : State}

theorem updateMultiplierTable_eq_ok {t : MultiplierTable}
    (h : updateMultiplierTable env s t = .ok s') :
    ∃ current, s.get .premiumTable = some current ∧ current.version < t.version ∧ t.Sound ∧
      s.Reprices s' .premiumTable (some t) [.multiplierTableUpdated t.version] := by
  obtain ⟨s₁, h₁, h₂⟩ := bind_eq_ok.mp h
  cases h₂
  obtain ⟨s₂, hf, hcheck, rfl⟩ := configure_eq_ok h₁
  simp only [bind_eq_ok, okOr_eq_ok, ensure_eq_ok] at hcheck
  obtain ⟨current, hcurrent, u, hversion, hrows⟩ := hcheck
  exact ⟨current, hcurrent, hversion, sound_of_validateRows hrows,
    (State.Reprices.of_write hf .premiumTable (some t)).emit
    (e := .multiplierTableUpdated t.version)
      rfl⟩

theorem adminSetPremiumMultiplier_eq_ok {key : MultiplierKey} {v : Int}
    (h : adminSetPremiumMultiplier env s key v = .ok s') :
    ∃ current, s.get .premiumTable = some current ∧
      (current.Sound → (current.setEntry key v).Sound) ∧
      s.Reprices s' .premiumTable (some (current.setEntry key v))
        [.multiplierTableUpdated (saturatingAdd32 current.version 1)] := by
  simp only [adminSetPremiumMultiplier, bind_eq_ok, okOr_eq_ok, pure_eq_ok] at h
  obtain ⟨-, -, s₁, h₁, current, hcurrent, u, hv, rfl⟩ := h
  have hf := frame_checkAndUpdateGovCooldown h₁
  rw [hf.get .premiumTable rfl] at hcurrent
  refine ⟨current, hcurrent, fun hs => hs.setEntry hv, ?_⟩
  have hw := State.Reprices.of_write hf .premiumTable (some (current.setEntry key v))
  refine ⟨hw.tables, ?_⟩
  rw [State.eventsOf_emit, State.eventsOf_emit, if_neg (by simp), if_pos rfl, List.append_nil]
  simpa [State.setOrRemove] using hw.events

theorem adminSetAssetPremiumTable_eq_ok {asset : Address} {table : Option MultiplierTable}
    (h : adminSetAssetPremiumTable env s asset table = .ok s') :
    State.PriceStep s (.call env (.setting (.adminSetAssetPremiumTable asset table))) s' := by
  obtain ⟨s₁, h₁, h₂⟩ := bind_eq_ok.mp h
  cases h₂
  obtain ⟨s₂, hf, hcheck, rfl⟩ := configure_eq_ok h₁
  simp only [bind_eq_ok, ensure_eq_ok] at hcheck
  obtain ⟨u, -, hcheck⟩ := hcheck
  have hw := State.Reprices.of_write hf (.assetPremiumTable asset) table
  cases table with
  | none => exact .removal (hw.emit (e := .assetPremiumTableSet asset 0 true) rfl)
  | some t =>
    simp only [bind_eq_ok, ensure_eq_ok] at hcheck
    obtain ⟨u', hversion, hrows⟩ := hcheck
    refine .asset (sound_of_validateRows hrows) ?_
      ((hw.emit (e := .assetPremiumTableSet asset t.version false) rfl).emit
        (e := .multiplierTableUpdated t.version) rfl)
    intro e he
    rw [he, Option.all_some] at hversion
    exact of_decide_eq_true hversion

/-- **Only the four writers change a table**, each together with its announcement. -/
theorem priceStep_of_step {host : Host} {l : Label} (hstep : (contract host).step s l s') :
    s.PriceStep l s' := by
  have hquiet : ∀ ks, ¬ l.initializes → ¬ l.setsPrices → Frame ks s s' →
      ks.contains .pricing = false → s.PriceStep l s' :=
    fun ks hl hl' hf hks => .quiet hl hl' (hf.sameKind hks) (hf.events .pricing hks)
  cases l with
  | closeLedger n =>
    obtain ⟨-, -, rfl⟩ := hstep
    exact .quiet id id (fun _ _ => rfl) rfl
  | tokens b a =>
    obtain ⟨-, rfl⟩ := hstep
    exact .quiet id id (fun _ _ => rfl) rfl
  | call env c =>
    obtain ⟨-, h⟩ := hstep
    have hf := frame_exec h
    cases c with
    | claim c => exact hquiet _ id id hf (c.untouched rfl)
    | policy c => exact hquiet _ id id hf (c.untouched rfl)
    | treasury c => exact hquiet _ id id hf (c.untouched rfl)
    | governance c => exact hquiet _ id id hf (c.untouched rfl)
    | setting c =>
      have hset := frame_settingOf (c := c) h
      cases c with
      | initializeContract admin token =>
        simp only [Call.exec, Setting.exec, initializeContract, bind_eq_ok, ensure_eq_ok,
          pure_eq_ok] at h
        obtain ⟨-, -, -, hnone, -, -, -, -, rfl⟩ := h
        refine .initial (Option.isNone_iff_eq_none.mp hnone) (by simp [State.writeAll]) ⟨?_, ?_⟩
        · intro k hk
          cases k with
          | premiumTable | assetPremiumTable => simp [State.writeAll, State.setOrRemove]
          | _ => cases hk
        · simp [State.writeAll, State.setOrRemove]
      | updateMultiplierTable t =>
        obtain ⟨current, hcurrent, hversion, hsound, hw⟩ := updateMultiplierTable_eq_ok h
        exact .table current hcurrent hversion hsound hw
      | adminSetPremiumMultiplier key v =>
        obtain ⟨current, hcurrent, hsound, hw⟩ := adminSetPremiumMultiplier_eq_ok h
        exact .entry current hcurrent hsound hw
      | adminSetAssetPremiumTable asset table => exact adminSetAssetPremiumTable_eq_ok h
      | _ => exact hquiet _ id id hset rfl

theorem admin_isSome_of_step {host : Host} {l : Label} (hstep : (contract host).step s l s')
    (hl : ¬ l.initializes) : (s'.get .admin).isSome = (s.get .admin).isSome := by
  have hkeep : ∀ ks, Frame ks s s' → ks.contains .admin = false →
      (s'.get .admin).isSome = (s.get .admin).isSome := by
    intro ks hf hks
    rw [hf.get .admin hks]
  cases l with
  | closeLedger n =>
    obtain ⟨-, -, rfl⟩ := hstep
    rfl
  | tokens b a =>
    obtain ⟨-, rfl⟩ := hstep
    rfl
  | call env c =>
    obtain ⟨-, h⟩ := hstep
    have hf := frame_exec h
    cases c with
    | claim c => exact hkeep _ hf (c.untouched rfl)
    | policy c => exact hkeep _ hf (c.untouched rfl)
    | treasury c => exact hkeep _ hf (c.untouched rfl)
    | governance c => exact hkeep _ hf (c.untouched rfl)
    | setting c =>
      have hset := frame_settingOf (c := c) h
      cases c with
      | initializeContract admin token => exact absurd trivial hl
      | acceptAdmin =>
        simp only [Call.exec, Setting.exec, acceptAdmin, bind_eq_ok, okOr_eq_ok, pure_eq_ok] at h
        obtain ⟨b, -, -, -, -, -, -, -, old, hold, rfl⟩ := h
        rw [hold]
        simp [State.writeAll]
      | _ => exact hkeep _ hset rfl

end Steps

/-! ## Along a run -/

/-- The stored tables are sound, and there is a global one as soon as there is an admin. -/
structure State.TablesSound (s : State) : Prop where
  default : ∀ t, s.get .premiumTable = some t → t.Sound
  asset : ∀ asset t, s.get (.assetPremiumTable asset) = some t → t.Sound
  initialised : (s.get .premiumTable).isSome = (s.get .admin).isSome

theorem tablesSound_of_step {host : Host} {s s' : State} {l : Label}
    (hstep : (contract host).step s l s') (hs : s.TablesSound) : s'.TablesSound := by
  have hinit : ¬ l.initializes → (s'.get .premiumTable).isSome = (s.get .premiumTable).isSome →
      (s'.get .premiumTable).isSome = (s'.get .admin).isSome := by
    intro hl htable
    rw [htable, admin_isSome_of_step hstep hl, hs.initialised]
  -- a write of the global table, and one of an asset's table
  have hglobal : ∀ {t : MultiplierTable} {announced : List Event}, t.Sound →
      s.Reprices s' .premiumTable (some t) announced →
      (s'.get .admin).isSome = true → s'.TablesSound := by
    intro t announced ht hw hadmin
    have hget := hw.get_self rfl
    refine ⟨fun t' ht' => ?_, fun asset t' ht' => ?_, ?_⟩
    · rw [hget] at ht'
      cases ht'
      exact ht
    · rw [hw.get_of_ne rfl (by simp)] at ht'
      exact hs.asset asset t' ht'
    · rw [hget, hadmin]
      rfl
  have hasset : ∀ {asset : Address} {v : Option MultiplierTable} {announced : List Event},
      ¬ l.initializes → (∀ t, v = some t → t.Sound) →
      s.Reprices s' (.assetPremiumTable asset) v announced → s'.TablesSound := by
    intro asset v announced hl hv hw
    have hget : s'.get .premiumTable = s.get .premiumTable := hw.get_of_ne rfl (by simp)
    refine ⟨fun t ht => ?_, fun asset' t ht => ?_, hinit hl (by rw [hget])⟩
    · rw [hget] at ht
      exact hs.default t ht
    · by_cases h : asset' = asset
      · subst h
        exact hv t ((hw.get_self rfl).symm.trans ht)
      · rw [hw.get_of_ne rfl (by simpa using h)] at ht
        exact hs.asset asset' t ht
  have hadmin : ¬ l.initializes → ∀ {current}, s.get .premiumTable = some current →
      (s'.get .admin).isSome = true := by
    intro hl current hcurrent
    rw [admin_isSome_of_step hstep hl, ← hs.initialised, hcurrent]
    rfl
  cases priceStep_of_step hstep with
  | quiet hl _ htables hevents =>
    refine ⟨fun t ht => ?_, fun asset t ht => ?_, hinit hl (by rw [htables .premiumTable rfl])⟩
    · rw [htables .premiumTable rfl] at ht
      exact hs.default t ht
    · rw [htables (.assetPremiumTable asset) rfl] at ht
      exact hs.asset asset t ht
  | initial hnone hsome hw => exact hglobal sound_defaultMultiplierTable hw hsome
  | table current hcurrent hversion hsound hw => exact hglobal hsound hw (hadmin id hcurrent)
  | entry current hcurrent hsound hw =>
    exact hglobal (hsound (hs.default current hcurrent)) hw (hadmin id hcurrent)
  | asset hsound hversion hw => exact hasset id (fun t' ht' => by cases ht'; exact hsound) hw
  | removal hw => exact hasset id (fun t' ht' => by cases ht') hw

theorem tablesSound_of_reach {host : Host} {s : State} (h : (contract host).Reach always s) :
    s.TablesSound := by
  refine h.invariant ?_ fun s l s' _ hstep hs => tablesSound_of_step hstep hs
  intro s hs
  refine ⟨fun t ht => ?_, fun asset t ht => ?_, ?_⟩
  · rw [State.Fresh.get host hs] at ht
    cases ht
  · rw [State.Fresh.get host hs] at ht
    cases ht
  · rw [State.Fresh.get host hs, State.Fresh.get host hs]
    rfl

/-- A local quote against sound tables fails as the premium does, or at the end of its term. -/
theorem callLocal_eq_error {s : State} (hs : s.TablesSound) (hadmin : (s.get .admin).isSome = true)
    {input : RiskInput} {base : Int} {ttl : Nat} {asset : Address} {e : Fault}
    (h : s.callLocal input base ttl asset = .error e) :
    e = .error .invalidBaseAmount ∧ base ≤ 0 ∨ e = .error .overflow ∨
      e = .error .negativePremiumNotSupported ∧ 100 < input.safetyScore := by
  obtain ⟨t, ht, hsound⟩ : ∃ t, s.getTableForAsset asset = .ok t ∧ t.Sound := by
    unfold State.getTableForAsset
    split
    · rename_i t ht
      exact ⟨t, rfl, hs.asset asset t ht⟩
    · obtain ⟨t, ht⟩ := Option.isSome_iff_exists.mp (hs.initialised.trans hadmin)
      rw [ht]
      exact ⟨t, rfl, hs.default t ht⟩
  rcases bind_eq_error.mp h with h | ⟨t', ht', h⟩
  · rw [ht] at h
    cases h
  rw [ht] at ht'
  cases ht'
  rcases bind_eq_error.mp h with h | ⟨⟨total, version⟩, -, h⟩
  · exact computePremium_eq_error hsound h
  rcases bind_eq_error.mp h with h | ⟨finish, -, h⟩
  · exact .inr (.inl (okOr_eq_error.mp h).2.symm)
  · exact absurd h pure_ne_error

/-- **The tables stay complete and bounded.**  In every state of a run after the initialisation
the global table and every table of an asset have a row for each region, age band and coverage
tier, each within the bounds, and a discount within its bounds; a local quote never fails for want
of a row, and with a positive base and a score of at most 100 never as a negative premium. -/
theorem tables_sound_of_reach {host : Host} {s : State} (h : (contract host).Reach always s)
    (hadmin : (s.get .admin).isSome = true) :
    (∃ t, s.get .premiumTable = some t ∧ t.Sound) ∧
      (∀ asset t, s.get (.assetPremiumTable asset) = some t → t.Sound) ∧
      ∀ input base ttl asset e, s.callLocal input base ttl asset = .error e →
        e ≠ .error .missingRegionMultiplier ∧ e ≠ .error .missingAgeMultiplier ∧
          e ≠ .error .missingCoverageMultiplier ∧
          (0 < base → input.safetyScore ≤ 100 → e ≠ .error .negativePremiumNotSupported) := by
  have hs := tablesSound_of_reach h
  refine ⟨?_, hs.asset, fun input base ttl asset e he => ?_⟩
  · obtain ⟨t, ht⟩ := Option.isSome_iff_exists.mp (hs.initialised.trans hadmin)
    exact ⟨t, ht, hs.default t ht⟩
  · obtain ⟨rfl, hbase⟩ | rfl | ⟨rfl, hscore⟩ := callLocal_eq_error hs hadmin he
    · simp
    · simp
    · simp only [ne_eq, reduceCtorEq, not_false_eq_true, Fault.error.injEq, true_and, not_true]
      omega

/-- A table is set for the asset, and an entry of the global table is changed. -/
def demoPrices : List Label :=
  [demoInit, demoCall (.setting (.adminSetAssetPremiumTable assetAddress
      (some { defaultMultiplierTable with version := 7 }))), .closeLedger 101000,
    demoCall (.setting (.adminSetPremiumMultiplier (.region .high) 50000))]

theorem tables_sound_of_reach_demo :
    ∃ s : State, (s.get .admin).isSome = true ∧
      (s.get (.assetPremiumTable assetAddress)).map (·.version) = some 7 ∧
      (∃ t, s.get .premiumTable = some t ∧ t.Sound) ∧
      (∀ asset t, s.get (.assetPremiumTable asset) = some t → t.Sound) ∧
      ∀ input base ttl asset e, s.callLocal input base ttl asset = .error e →
        e ≠ .error .missingRegionMultiplier ∧ e ≠ .error .missingAgeMultiplier ∧
          e ≠ .error .missingCoverageMultiplier ∧
          (0 < base → input.safetyScore ≤ 100 → e ≠ .error .negativePremiumNotSupported) := by
  obtain ⟨s, hreach, hval⟩ := exists_of_follow always_of_noCheck (deployed 0) demoPrices
    (f := fun s => ((s.get .admin).isSome,
      (s.get (.assetPremiumTable assetAddress)).map (·.version))) (a := (true, some 7))
    (fresh_deployed (by decide)) (by simp [demoPrices, demoInit]) (by decide +kernel)
  simp only [Prod.mk.injEq] at hval
  exact ⟨s, hval.1, hval.2, tables_sound_of_reach hreach hval.1⟩

end NiffyInsure
