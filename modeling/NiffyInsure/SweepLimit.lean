import Mathlib.Algebra.Ring.Int.Defs
import NiffyInsure.Frame.Calls
import NiffyInsure.Trace

/-!
# The per-ledger sweep limit

`admin_sweep`, `sweep_token` and a confirmed sweep share one limit on what leaves the contract
within a ledger.  The contract does not keep the sum for every ledger: it keeps the ledger of
the last limited sweep and what was swept in it, and starts again at zero in another ledger.

* `sweptIn`: what a trace swept in a ledger.
* `sweepUse_of_step`: a step that sweeps has passed the limit for what it sweeps, and no other
  step touches the two entries.
* `metered_of_reach`: in the present ledger the two entries hold the sum of the trace.
* `swept_within_limit`: the sweeps of a ledger stay within the limit that was in force in it.
-/

namespace NiffyInsure

open Machine

/-! ## What a trace has swept -/

/-- What a call from `s` sweeps, if it succeeds. -/
def sweepOf (s : State) : Label → Int
  | .call _ (.treasury (.adminSweep _ _ amount)) => amount
  | .call _ (.treasury (.sweepToken _ _ amount _)) => amount
  | .call _ (.treasury (.confirmAdminAction _)) =>
    match (s.get .pendingAdminAction).map PendingAdminAction.action with
    | some (.tokenSweep _ _ amount _) => amount
    | _ => 0
  | _ => 0

/-- What the sweeps of the trace took out in the ledger. -/
def sweptIn (g : Journal) (ledger : Nat) : Int :=
  ((g.filter fun m => m.before.sequence = ledger).map fun m => sweepOf m.before m.label).sum

/-- The states of a run: the state before each move, and the last one. -/
def visited (s : State) (g : Journal) : List State := g.map (·.before) ++ [s]

/-- The limit is `limit` in every state of the ledger that the moves of the trace start from. -/
def LimitedTo (g : Journal) (ledger : Nat) (limit : Int) : Prop :=
  ∀ m ∈ g, m.before.sequence = ledger → m.before.get .maxSweepPerLedger = some limit

section Trace

variable {g : Journal} {m : Move State Label} {ledger : Nat} {limit : Int}

theorem sweptIn_append : sweptIn (g ++ [m]) ledger =
    sweptIn g ledger + if m.before.sequence = ledger then sweepOf m.before m.label else 0 := by
  unfold sweptIn
  rw [List.filter_append, List.map_append, List.sum_append]
  by_cases h : m.before.sequence = ledger
  · simp [h]
  · simp [h]

theorem LimitedTo.init (h : LimitedTo (g ++ [m]) ledger limit) : LimitedTo g ledger limit :=
  fun x hx => h x (List.mem_append_left _ hx)

theorem LimitedTo.last (h : LimitedTo (g ++ [m]) ledger limit) (hm : m.before.sequence = ledger) :
    m.before.get .maxSweepPerLedger = some limit :=
  h m (by simp) hm

theorem sweptIn_eq_zero (h : ∀ m ∈ g, m.before.sequence < ledger) : sweptIn g ledger = 0 := by
  have hnil : g.filter (fun m => m.before.sequence = ledger) = [] := by
    rw [List.filter_eq_nil_iff]
    intro m hm
    have hlt := h m hm
    simp only [decide_eq_true_eq]
    omega
  rw [sweptIn, hnil, List.map_nil, List.sum_nil]

end Trace

/-! ## What a step does to the two entries -/

section Steps

variable {env : Env} {s s' : State}

/-- What the limit counts as swept so far in the present ledger. -/
def State.sweepUsed (s : State) : Int :=
  if s.get .lastSweepLedger = some s.sequence then s.getCumulativeSweptThisLedger else 0

/-- **What passing the limit means**: no limit is set, or the sum so far and the amount stay
within it and are noted down. -/
theorem checkSweepLimit_eq_ok {amount : Int} (h : s.checkSweepLimit amount = .ok s') :
    (s.get .maxSweepPerLedger = none ∧ s' = s) ∨ ∃ limit, s.get .maxSweepPerLedger = some limit ∧
      s.sweepUsed + amount ≤ limit ∧ s'.get .lastSweepLedger = some s.sequence ∧
      s'.getCumulativeSweptThisLedger = s.sweepUsed + amount := by
  unfold State.checkSweepLimit at h
  split at h
  case h_1 hnone =>
    cases h
    exact Or.inl ⟨hnone, rfl⟩
  case h_2 limit hlimit =>
    simp only [bind_eq_ok, okOr_eq_ok, checkedAdd128, fit128_eq_some, ensure_eq_ok,
      pure_eq_ok] at h
    obtain ⟨c, ⟨-, rfl⟩, -, hle, rfl⟩ := h
    refine Or.inr ⟨limit, hlimit, hle, ?_, ?_⟩
    · rw [State.get_set_of_ne _ _ (by simp), State.get_set_self]
    · rw [State.getCumulativeSweptThisLedger, State.get_set_self]
      rfl

theorem limited_of_adminSweep {asset recipient : Address} {amount : Int}
    (h : adminSweep env s asset recipient amount = .ok s') :
    ∃ s₁, s.checkSweepLimit amount = .ok s₁ ∧ SameKind .sweepUse s₁ s' := by
  simp only [adminSweep, bind_eq_ok, mapErr_eq_ok, pure_eq_ok] at h
  obtain ⟨admin, -, -, -, -, -, -, -, -, -, s₁, h₁, s₂, h₂, s₃, h₃, rfl⟩ := h
  refine ⟨s₁, h₁, ?_⟩
  rw [SameKind.emit_iff]
  exact ((frame_recordSweep h₂).sameKind rfl).trans ((frame_tokenTransfer h₃).sameKind rfl)

theorem limited_of_sweepTokenInner {asset recipient : Address} {amount : Int} {reasonCode : Nat}
    (h : sweepTokenInner env s asset recipient amount reasonCode = .ok s') :
    ∃ s₁, s.checkSweepLimit amount = .ok s₁ ∧ SameKind .sweepUse s₁ s' := by
  simp only [sweepTokenInner, bind_eq_ok, pure_eq_ok] at h
  obtain ⟨-, -, -, -, s₁, h₁, -, -, -, -, -, -, s₃, h₃, admin, -, rfl⟩ := h
  refine ⟨s₁, h₁, ?_⟩
  have hbook : Frame [.assetLedger] s₁ (s₁.ignoreErr (s₁.recordSweep asset amount)) :=
    (Frame.refl _ s₁).ignoreErr fun t ht => frame_recordSweep ht
  rw [SameKind.emit_iff]
  exact (hbook.sameKind rfl).trans ((frame_tokenTransfer h₃).sameKind rfl)

theorem limited_of_confirm {confirmer : Address} (h : confirmAdminAction env s confirmer = .ok s') :
    (sweepOf s (.call env (.treasury (.confirmAdminAction confirmer))) = 0 ∧
        SameKind .sweepUse s s') ∨
      ∃ s₁, s.checkSweepLimit (sweepOf s (.call env (.treasury (.confirmAdminAction confirmer)))) =
        .ok s₁ ∧ SameKind .sweepUse s₁ s' := by
  simp only [confirmAdminAction, bind_eq_ok, okOr_eq_ok, pure_eq_ok] at h
  obtain ⟨-, -, pending, hpending, -, -, -, -, s₁, h₁, rfl⟩ := h
  simp only [sweepOf, hpending, Option.map_some]
  cases haction : pending.action with
  | treasuryRotation newTreasury =>
    rw [haction, State.executeAdminAction] at h₁
    cases h₁
    refine Or.inl ⟨rfl, ?_⟩
    rw [SameKind.emit_iff, SameKind.remove_iff rfl, State.updateTreasury, SameKind.emit_iff,
      SameKind.set_iff rfl]
    exact .refl _ s
  | tokenSweep asset recipient amount reasonCode =>
    rw [haction, State.executeAdminAction] at h₁
    obtain ⟨s₂, h₂, hsame⟩ := limited_of_sweepTokenInner h₁
    refine Or.inr ⟨s₂, h₂, ?_⟩
    rw [SameKind.emit_iff, SameKind.remove_iff rfl]
    exact hsame

/-- **A step that sweeps has passed the limit for what it sweeps**, and no other step touches the
two entries. -/
theorem sweepUse_of_step {host : Host} {l : Label} (hstep : (contract host).step s l s') :
    (sweepOf s l = 0 ∧ SameKind .sweepUse s s') ∨
      (s'.sequence = s.sequence ∧ ∃ s₁, s.checkSweepLimit (sweepOf s l) = .ok s₁ ∧
        SameKind .sweepUse s₁ s') := by
  cases l with
  | closeLedger n =>
    obtain ⟨-, -, rfl⟩ := hstep
    exact Or.inl ⟨rfl, fun _ _ => rfl⟩
  | tokens b a =>
    obtain ⟨-, rfl⟩ := hstep
    exact Or.inl ⟨rfl, fun _ _ => rfl⟩
  | call env c =>
    obtain ⟨-, h⟩ := hstep
    have hf := frame_exec h
    cases c with
    | claim c => exact Or.inl ⟨rfl, hf.sameKind (c.untouched rfl)⟩
    | policy c => exact Or.inl ⟨rfl, hf.sameKind (c.untouched rfl)⟩
    | governance c => exact Or.inl ⟨rfl, hf.sameKind (c.untouched rfl)⟩
    | setting c => exact Or.inl ⟨rfl, hf.sameKind rfl⟩
    | treasury c =>
      cases c with
      | adminSweep => exact Or.inr ⟨hf.sequence, limited_of_adminSweep h⟩
      | sweepToken =>
        obtain ⟨admin, -, h⟩ := bind_eq_ok.mp h
        exact Or.inr ⟨hf.sequence, limited_of_sweepTokenInner h⟩
      | confirmAdminAction => exact (limited_of_confirm h).imp_right fun h => ⟨hf.sequence, h⟩
      | _ => exact Or.inl ⟨rfl, hf.sameKind rfl⟩

end Steps

/-! ## Along a run -/

theorem visited_append (s s' : State) (l : Label) (g : Journal) :
    visited s' (g ++ [⟨s, l, s'⟩]) = visited s g ++ [s'] := by
  simp [visited]

/-- A limit that is set is positive. -/
def State.SweepLimitPos (s : State) : Prop :=
  ∀ limit, s.get .maxSweepPerLedger = some limit → 0 < limit

theorem sweepLimitPos_of_step {host : Host} {s s' : State} {l : Label}
    (hstep : (contract host).step s l s') (hs : s.SweepLimitPos) : s'.SweepLimitPos := by
  have hsame : s'.get .maxSweepPerLedger = s.get .maxSweepPerLedger → s'.SweepLimitPos :=
    fun heq limit h => hs limit (heq ▸ h)
  cases l with
  | closeLedger n =>
    obtain ⟨-, -, rfl⟩ := hstep
    exact hs
  | tokens b a =>
    obtain ⟨-, rfl⟩ := hstep
    exact hs
  | call env c =>
    obtain ⟨-, h⟩ := hstep
    have hf := frame_exec h
    cases c with
    | claim c => exact hsame (hf.get _ (c.untouched rfl))
    | policy c => exact hsame (hf.get _ (c.untouched rfl))
    | treasury c => exact hsame (hf.get _ (c.untouched rfl))
    | governance c => exact hsame (hf.get _ (c.untouched rfl))
    | setting c =>
      have hset := frame_settingOf (c := c) h
      cases c with
      | adminSetMaxSweepPerLedger cap =>
        obtain ⟨s₁, -, hcheck, rfl⟩ := configure_eq_ok h
        intro limit hlimit
        simp only [State.writeAll, List.foldl_cons, List.foldl_nil, State.get_setOrRemove_self,
          Option.some.injEq] at hlimit
        rw [← hlimit]
        exact ensure_eq_ok.mp hcheck
      | _ => exact hsame (hset.get _ rfl)

/-- The two entries hold the sum of the present ledger while a limit is in force in it, and the
sums of all ledgers are within their limits. -/
structure Metered (s : State) (g : Journal) : Prop where
  past : ∀ m ∈ g, m.before.sequence ≤ s.sequence
  last : ∀ ledger, s.get .lastSweepLedger = some ledger → ledger ≤ s.sequence
  positive : ∀ t ∈ visited s g, t.SweepLimitPos
  used : ∀ limit, LimitedTo g s.sequence limit → s.sweepUsed = sweptIn g s.sequence
  bound : ∀ ledger limit, LimitedTo g ledger limit → 0 < limit → sweptIn g ledger ≤ limit

section Run

variable {s s' : State} {g : Journal} {l : Label}

theorem sweepUsed_of_same (h : SameKind .sweepUse s s') (hseq : s'.sequence = s.sequence) :
    s'.sweepUsed = s.sweepUsed := by
  unfold State.sweepUsed
  rw [h .lastSweepLedger rfl, hseq, State.getCumulativeSweptThisLedger,
    State.getCumulativeSweptThisLedger, h .cumulativeSweptThisLedger rfl]

theorem sweptIn_idle (hzero : sweepOf s l = 0) (ledger : Nat) :
    sweptIn (g ++ [⟨s, l, s'⟩]) ledger = sweptIn g ledger := by
  rw [sweptIn_append]
  simp only [hzero, ite_self, add_zero]

theorem metered_idle (hle : s.sequence ≤ s'.sequence) (hpos : s'.SweepLimitPos)
    (hzero : sweepOf s l = 0) (hsame : SameKind .sweepUse s s') (h : Metered s g) :
    Metered s' (g ++ [⟨s, l, s'⟩]) where
  past := by
    intro m hm
    rcases List.mem_append.mp hm with hm | hm
    · exact (h.past m hm).trans hle
    · rw [List.mem_singleton.mp hm]
      exact hle
  last ledger hledger := by
    rw [hsame .lastSweepLedger rfl] at hledger
    exact (h.last ledger hledger).trans hle
  positive t ht := by
    rw [visited_append] at ht
    rcases List.mem_append.mp ht with ht | ht
    · exact h.positive t ht
    · rw [List.mem_singleton.mp ht]
      exact hpos
  used limit hlimit := by
    rw [sweptIn_idle hzero]
    rcases hle.eq_or_lt with heq | hlt
    · rw [sweepUsed_of_same hsame heq.symm, ← heq]
      exact h.used limit (heq ▸ hlimit.init)
    · -- a new ledger: the last limited sweep and all moves lie before it
      rw [sweptIn_eq_zero fun m hm => (h.past m hm).trans_lt hlt, State.sweepUsed, if_neg]
      intro hlast
      rw [hsame .lastSweepLedger rfl] at hlast
      have hpast : s'.sequence ≤ s.sequence := h.last _ hlast
      exact absurd hpast (Nat.not_le.mpr hlt)
  bound ledger limit hlimit hpos' := by
    rw [sweptIn_idle hzero]
    exact h.bound ledger limit hlimit.init hpos'

theorem metered_sweep {s₁ : State} (hseq : s'.sequence = s.sequence) (hpos : s'.SweepLimitPos)
    (hcheck : s.checkSweepLimit (sweepOf s l) = .ok s₁) (hsame : SameKind .sweepUse s₁ s')
    (h : Metered s g) : Metered s' (g ++ [⟨s, l, s'⟩]) where
  past := by
    intro m hm
    rw [hseq]
    rcases List.mem_append.mp hm with hm | hm
    · exact h.past m hm
    · rw [List.mem_singleton.mp hm]
  last ledger hledger := by
    rw [hsame .lastSweepLedger rfl] at hledger
    rw [hseq]
    rcases checkSweepLimit_eq_ok hcheck with ⟨-, rfl⟩ | ⟨limit, -, -, hlast, -⟩
    · exact h.last ledger hledger
    · rw [hlast] at hledger
      cases hledger
      exact le_rfl
  positive t ht := by
    rw [visited_append] at ht
    rcases List.mem_append.mp ht with ht | ht
    · exact h.positive t ht
    · rw [List.mem_singleton.mp ht]
      exact hpos
  used limit hlimit := by
    rw [hseq] at hlimit ⊢
    rcases checkSweepLimit_eq_ok hcheck with ⟨hnone, -⟩ | ⟨limit', -, -, hlast, hsum⟩
    · rw [hlimit.last rfl] at hnone
      cases hnone
    · rw [sweptIn_append, if_pos rfl, ← h.used limit hlimit.init, State.sweepUsed,
        hsame .lastSweepLedger rfl, hlast, hseq, if_pos rfl, State.getCumulativeSweptThisLedger,
        hsame .cumulativeSweptThisLedger rfl]
      exact hsum
  bound ledger limit hlimit hpos' := by
    rw [sweptIn_append]
    by_cases hledger : s.sequence = ledger
    · subst hledger
      rw [if_pos rfl]
      have hset := hlimit.last rfl
      rcases checkSweepLimit_eq_ok hcheck with ⟨hnone, -⟩ | ⟨limit', hlimit', hle, -, -⟩
      · rw [hset] at hnone
        cases hnone
      · rw [hset] at hlimit'
        cases hlimit'
        rw [← h.used limit hlimit.init]
        exact hle
    · rw [if_neg hledger, add_zero]
      exact h.bound ledger limit hlimit.init hpos'

end Run

/-- **The two entries meter the present ledger**, in every run. -/
theorem metered_of_reach {host : Host} {s : State} {g : Journal}
    (h : (contract host).traced.Reach (fun p l => always p.1 l) (s, g)) : Metered s g := by
  refine h.trace_invariant (I := Metered) ?_ ?_
  · intro s hs
    have hnone : ∀ k, s.get k = none := State.Fresh.get host hs
    refine ⟨fun _ hm => absurd hm List.not_mem_nil, ?_, ?_, ?_, ?_⟩
    · intro ledger hledger
      rw [hnone] at hledger
      cases hledger
    · intro t ht limit hlimit
      rw [List.mem_singleton.mp ht, hnone] at hlimit
      cases hlimit
    · intro limit _
      rw [State.sweepUsed, hnone, if_neg (by simp)]
      rfl
    · intro ledger limit _ hpos
      exact hpos.le
  · intro s g l s' _ _ hstep hI
    have hpos : s'.SweepLimitPos := sweepLimitPos_of_step hstep (hI.positive s (by simp [visited]))
    rcases sweepUse_of_step hstep with ⟨hzero, hsame⟩ | ⟨hseq, s₁, hcheck, hsame⟩
    · exact metered_idle (sequence_of_step hstep).1 hpos hzero hsame hI
    · exact metered_sweep hseq hpos hcheck hsame hI

/-- **The sweeps of a ledger stay within its limit.**  In a run that comes through the ledger with
the limit set to the same value in all of its states there, the sweeps of that ledger take out at
most the limit between them: `admin_sweep`, `sweep_token` and confirmed sweeps, in any order and
of any assets. -/
theorem swept_within_limit {host : Host} {s : State} {g : Journal} {ledger : Nat} {limit : Int}
    (h : (contract host).traced.Reach (fun p l => always p.1 l) (s, g))
    (hcomes : ∃ t ∈ visited s g, t.sequence = ledger)
    (hset : ∀ t ∈ visited s g, t.sequence = ledger → t.get .maxSweepPerLedger = some limit) :
    sweptIn g ledger ≤ limit := by
  have hm := metered_of_reach h
  obtain ⟨t, ht, hledger⟩ := hcomes
  have hpos : 0 < limit := hm.positive t ht limit (hset t ht hledger)
  refine hm.bound ledger limit ?_ hpos
  intro m hmem hseq
  refine hset m.before ?_ hseq
  exact List.mem_append_left _ (List.mem_map_of_mem hmem)

/-- A sweep and a confirmed sweep in ledger 1001, under a limit of 100. -/
theorem swept_within_limit_demo : ∃ s g,
    (contract demoHost).traced.Reach (fun p l => always p.1 l) (s, g) ∧ sweptIn g 1001 = 90 ∧
      sweptIn g 1001 ≤ 100 := by
  obtain ⟨s, g, hreach, hval⟩ := exists_journal always_of_noCheck (deployed 1000)
    [demoInit, demoCall (.setting (.adminSetMaxSweepPerLedger 100)),
      demoCall (.treasury (.proposeAdminAction (.tokenSweep assetAddress 5 30 0))),
      demoCall (.treasury (.sweepToken assetAddress 5 20 0)), .closeLedger 1001,
      demoCall (.treasury (.sweepToken assetAddress 5 60 0)),
      demoCall (.treasury (.confirmAdminAction 5))]
    (f := fun p => ((visited p.1 p.2).any fun t => t.sequence == 1001,
      (visited p.1 p.2).all fun t => t.sequence != 1001 || t.get .maxSweepPerLedger == some 100,
      sweptIn p.2 1001))
    (a := (true, true, 90)) (fresh_deployed (by decide)) (by simp [demoInit]) (by decide +kernel)
  simp only [Prod.mk.injEq] at hval
  obtain ⟨hany, hall, hsum⟩ := hval
  refine ⟨s, g, hreach, hsum, swept_within_limit hreach ?_ ?_⟩
  · obtain ⟨t, ht, heq⟩ := List.any_eq_true.mp hany
    exact ⟨t, ht, by simpa using heq⟩
  · intro t ht hseq
    have hlimit := List.all_eq_true.mp hall t ht
    rw [hseq] at hlimit
    simpa using hlimit

end NiffyInsure
