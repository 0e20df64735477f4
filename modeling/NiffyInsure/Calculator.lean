import NiffyInsure.PremiumFormula

/-!
# The premium calculator

The second contract (`premium_calculator`) that quotes premiums, with an engine of its own that
repeats the staged formula.  Its types mirror those of the policy contract and are shared with them
here; its errors are its own.

* `computePremium_toOption`: the two engines compute the same, but for the guard on the score that
  only this one has.
* `engines_agree_iff`: when the two agree.
* `compute_of_reach`: what the deployed calculator answers, against the local engine of the policy
  contract with the same table.
-/

namespace NiffyInsure

namespace Calculator

/-- `CalcError`. -/
inductive CalcError where
  | notInitialized | alreadyInitialized | unauthorized | invalidBaseAmount | safetyScoreOutOfRange
  | missingRegionMultiplier | missingAgeMultiplier | missingCoverageMultiplier
  | regionMultiplierOutOfBounds | ageMultiplierOutOfBounds | coverageMultiplierOutOfBounds
  | safetyDiscountOutOfBounds | invalidConfigVersion | overflow | divideByZero
  | negativePremiumNotSupported | paused
  deriving DecidableEq

/-- `return Err(e)` unless `p` holds. -/
def require (p : Prop) [Decidable p] (e : CalcError) : Except CalcError Unit :=
  if p then .ok () else .error e

/-- `Option::ok_or`. -/
def okOr {α : Type} (o : Option α) (e : CalcError) : Except CalcError α :=
  match o with
  | some a => .ok a
  | none => .error e

/-- `checked_mul_ratio`. -/
def checkedMulRatio (amount numerator denominator : Int) (rounding : Rounding) :
    Except CalcError Int := do
  require (0 ≤ amount ∧ 0 ≤ numerator ∧ 0 ≤ denominator) .negativePremiumNotSupported
  let product ← okOr (checkedMul128 amount numerator) .overflow
  require (denominator ≠ 0) .divideByZero
  let quotient := product / denominator
  match rounding with
  | .floor => pure quotient
  | .ceil =>
    if product % denominator = 0 then pure quotient
    else okOr (checkedAdd128 quotient 1) .overflow

/-- `safety_multiplier`. -/
def safetyMultiplier (safetyScore : Nat) (maxDiscount : Int) : Except CalcError Int := do
  let earned ← checkedMulRatio safetyScore maxDiscount PERCENT_SCALE .floor
  okOr (checkedSub128 SCALE earned) .overflow

/-- `premium_calculator::premium_pure::compute_premium`. -/
def computePremium (input : RiskInput) (baseAmount : Int) (table : MultiplierTable) :
    Except CalcError (Int × Nat) := do
  require (0 < baseAmount) .invalidBaseAmount
  require (input.safetyScore ≤ 100) .safetyScoreOutOfRange
  let regionM ← okOr (table.region input.region) .missingRegionMultiplier
  let ageM ← okOr (table.age input.ageBand) .missingAgeMultiplier
  let coverageM ← okOr (table.coverage input.coverage) .missingCoverageMultiplier
  let safetyM ← safetyMultiplier input.safetyScore table.safetyDiscount
  let afterRegion ← checkedMulRatio baseAmount regionM SCALE .ceil
  let afterAge ← checkedMulRatio afterRegion ageM SCALE .ceil
  let afterCoverage ← checkedMulRatio afterAge coverageM SCALE .ceil
  let afterSafety ← checkedMulRatio afterCoverage safetyM SCALE .floor
  -- rounding to a multiple of one leaves a non-negative value as it is
  require (0 ≤ afterSafety) .negativePremiumNotSupported
  pure (max afterSafety 1, table.version)

/-! ## The two engines -/

section Outcome

variable {α β : Type}

theorem toOption_require {p : Prop} [Decidable p] {e : CalcError} {f : Fault} :
    (require p e).toOption = (ensure p f).toOption := by
  unfold require ensure
  split <;> rfl

theorem toOption_okOr {o : Option α} {e : CalcError} {f : Fault} :
    (okOr o e).toOption = (NiffyInsure.okOr o f).toOption := by
  cases o <;> rfl

theorem toOption_bind {ε : Type} {x : Except ε α} {k : α → Except ε β} :
    (x >>= k).toOption = x.toOption.bind fun a => (k a).toOption := by
  cases x <;> rfl

theorem toOption_ok {ε : Type} {a : α} : (Except.ok a : Except ε α).toOption = some a := rfl

theorem toOption_pure {ε : Type} {a : α} : (pure a : Except ε α).toOption = some a := rfl

theorem toOption_eq_some {ε : Type} {x : Except ε α} {a : α} : x.toOption = some a ↔ x = .ok a := by
  cases x with
  | error e => exact iff_of_false (fun h => by cases h) (fun h => by cases h)
  | ok b =>
    constructor
    · intro h
      cases h
      rfl
    · intro h
      cases h
      rfl

end Outcome

theorem toOption_checkedMulRatio (amount numerator denominator : Int) (rounding : Rounding) :
    (checkedMulRatio amount numerator denominator rounding).toOption =
      (NiffyInsure.checkedMulRatio amount numerator denominator rounding).toOption := by
  simp only [checkedMulRatio, NiffyInsure.checkedMulRatio, toOption_bind]
  refine congrArg₂ _ toOption_require (funext fun _ => ?_)
  refine congrArg₂ _ toOption_okOr (funext fun product => ?_)
  refine congrArg₂ _ toOption_require (funext fun _ => ?_)
  cases rounding with
  | floor => rfl
  | ceil =>
    dsimp only
    split
    · rfl
    · exact toOption_okOr

theorem toOption_safetyMultiplier (score : Nat) (discount : Int) :
    (safetyMultiplier score discount).toOption =
      (NiffyInsure.safetyMultiplier score discount).toOption := by
  simp only [safetyMultiplier, NiffyInsure.safetyMultiplier, toOption_bind]
  exact congrArg₂ _ (toOption_checkedMulRatio ..) (funext fun _ => toOption_okOr)

/-- **What the calculator computes** is what the policy contract computes, where the score is in
range. -/
theorem toOption_computePremium (input : RiskInput) (b : Int) (t : MultiplierTable) :
    (computePremium input b t).toOption =
      if input.safetyScore ≤ 100 then (NiffyInsure.computePremium input b t).toOption
      else none := by
  split
  · rename_i hscore
    simp only [computePremium, NiffyInsure.computePremium, toOption_bind]
    refine congrArg₂ _ toOption_require (funext fun _ => ?_)
    rw [require, if_pos hscore, toOption_ok, Option.bind_some]
    refine congrArg₂ _ toOption_okOr (funext fun r => ?_)
    refine congrArg₂ _ toOption_okOr (funext fun a => ?_)
    refine congrArg₂ _ toOption_okOr (funext fun c => ?_)
    refine congrArg₂ _ (toOption_safetyMultiplier ..) (funext fun m => ?_)
    refine congrArg₂ _ (toOption_checkedMulRatio ..) (funext fun _ => ?_)
    refine congrArg₂ _ (toOption_checkedMulRatio ..) (funext fun _ => ?_)
    refine congrArg₂ _ (toOption_checkedMulRatio ..) (funext fun _ => ?_)
    refine congrArg₂ _ (toOption_checkedMulRatio ..) (funext fun x => ?_)
    refine congrArg₂ _ toOption_require (funext fun _ => ?_)
    rw [toOption_pure, toOption_pure]
    congr 2
    split <;> omega
  · rename_i hscore
    rw [computePremium, require, require, if_neg hscore]
    split <;> rfl

/-- Both succeed with the same answer, or both fail. -/
def Agree {ε ε' α : Type} (x : Except ε α) (y : Except ε' α) : Prop :=
  (∃ a, x = .ok a ∧ y = .ok a) ∨ ((∃ e, x = .error e) ∧ ∃ e, y = .error e)

theorem agree_iff {ε ε' α : Type} {x : Except ε α} {y : Except ε' α} :
    Agree x y ↔ x.toOption = y.toOption := by
  cases x with
  | error e =>
    cases y with
    | error e' => exact iff_of_true (.inr ⟨⟨e, rfl⟩, e', rfl⟩) rfl
    | ok b =>
      refine iff_of_false ?_ (fun h => by cases h)
      rintro (⟨a, h, -⟩ | ⟨-, e', h⟩)
      · cases h
      · cases h
  | ok a =>
    cases y with
    | error e' =>
      refine iff_of_false ?_ (fun h => by cases h)
      rintro (⟨a, -, h⟩ | ⟨⟨e, h⟩, -⟩)
      · cases h
      · cases h
    | ok b =>
      constructor
      · rintro (⟨a', h, h'⟩ | ⟨⟨e, h⟩, -⟩)
        · cases h
          cases h'
          rfl
        · cases h
      · intro h
        cases h
        exact .inl ⟨a, rfl, rfl⟩

/-- **When the two engines agree**: for every score in range, and for a score out of range where the
policy contract's engine cannot price the input either. -/
theorem engines_agree_iff {input : RiskInput} {b : Int} {t : MultiplierTable}
    (hmax : b ≤ I128_MAX) :
    Agree (NiffyInsure.computePremium input b t) (computePremium input b t) ↔
      input.safetyScore ≤ 100 ∨ ¬ ∃ r a c, Priced t input b r a c := by
  rw [agree_iff, toOption_computePremium]
  split
  · rename_i hscore
    exact iff_of_true rfl (.inl hscore)
  · rename_i hscore
    rw [or_iff_right hscore]
    cases hp : NiffyInsure.computePremium input b t with
    | error e =>
      refine iff_of_true rfl ?_
      rintro ⟨r, a, c, hpriced⟩
      have hok := (computePremium_eq_ok hmax).mpr ⟨r, a, c, hpriced, rfl⟩
      rw [hp] at hok
      cases hok
    | ok p =>
      refine iff_of_false (fun h => by cases h) ?_
      obtain ⟨r, a, c, hpriced, -⟩ := (computePremium_eq_ok hmax).mp hp
      exact fun hnone => hnone ⟨r, a, c, hpriced⟩

theorem engines_agree_iff_default :
    Agree (NiffyInsure.computePremium ⟨.medium, .adult, .standard,
      100⟩ 1000000 defaultMultiplierTable) (computePremium ⟨.medium, .adult, .standard,
      100⟩ 1000000 defaultMultiplierTable) :=
  (engines_agree_iff (by decide)).mpr (.inl (by decide))

/-- A score of 101 is priced by the policy contract, and refused by the calculator. -/
theorem not_engines_agree :
    NiffyInsure.computePremium ⟨.medium, .adult, .standard, 101⟩ 1000000 defaultMultiplierTable =
        .ok (798000, 1) ∧
      computePremium ⟨.medium, .adult, .standard, 101⟩ 1000000 defaultMultiplierTable =
        .error .safetyScoreOutOfRange ∧
      ¬ Agree
        (NiffyInsure.computePremium ⟨.medium, .adult, .standard,
          101⟩ 1000000 defaultMultiplierTable)
        (computePremium ⟨.medium, .adult, .standard, 101⟩ 1000000 defaultMultiplierTable) := by
  refine ⟨by rfl, by rfl, ?_⟩
  rw [agree_iff]
  decide

/-! ## The contract -/

structure State where
  admin : Option Address
  table : Option MultiplierTable
  paused : Bool

/-- How a call fails: with an error of the contract, or by a trap. -/
inductive Failure where
  | error (e : CalcError)
  | trap
  deriving DecidableEq

/-- The `?` on a result of the contract. -/
def orFail {α : Type} (x : Except CalcError α) : Except Failure α := x.mapError .error

/-- `require_auth`. -/
def requireAuth (signers : List Address) (admin : Address) : Except Failure Unit :=
  if admin ∈ signers then .ok () else .error .trap

/-- `validate_table`: the counts first, then the bounds. -/
def validateTable (t : MultiplierTable) : Except CalcError Unit := do
  require (rowCount t.region RegionTier.all = 3) .missingRegionMultiplier
  require (rowCount t.age AgeBand.all = 3) .missingAgeMultiplier
  require (rowCount t.coverage CoverageTier.all = 3) .missingCoverageMultiplier
  require (rowsWithin t.region RegionTier.all = true) .regionMultiplierOutOfBounds
  require (rowsWithin t.age AgeBand.all = true) .ageMultiplierOutOfBounds
  require (rowsWithin t.coverage CoverageTier.all = true) .coverageMultiplierOutOfBounds
  require (0 ≤ t.safetyDiscount ∧ t.safetyDiscount ≤ MAX_SAFETY_DISCOUNT) .safetyDiscountOutOfBounds

namespace State

variable (s : State)

/-- `initialize`, with `default_table`. -/
def init (admin : Address) : Except Failure State := do
  orFail (require (s.admin = none) .alreadyInitialized)
  pure { s with admin := some admin, table := some defaultMultiplierTable }

/-- `compute`. -/
def compute (input : RiskInput) (baseAmount : Int) : Except CalcError (Int × Nat) := do
  require (s.paused = false) .paused
  let table ← okOr s.table .notInitialized
  computePremium input baseAmount table

/-- `update_table`. -/
def updateTable (signers : List Address) (newTable : MultiplierTable) : Except Failure State := do
  let admin ← orFail (okOr s.admin .notInitialized)
  requireAuth signers admin
  let current ← orFail (okOr s.table .notInitialized)
  orFail (require (current.version < newTable.version) .invalidConfigVersion)
  orFail (validateTable newTable)
  pure { s with table := some newTable }

/-- `set_paused`. -/
def setPaused (signers : List Address) (paused : Bool) : Except Failure State := do
  let admin ← orFail (okOr s.admin .notInitialized)
  requireAuth signers admin
  pure { s with paused }

end State

/-- The calls that write. -/
inductive Call where
  | init (admin : Address)
  | updateTable (signers : List Address) (newTable : MultiplierTable)
  | setPaused (signers : List Address) (paused : Bool)

def Call.run (s : State) : Call → Except Failure State
  | .init admin => s.init admin
  | .updateTable signers newTable => s.updateTable signers newTable
  | .setPaused signers paused => s.setPaused signers paused

/-- The calculator from its deployment on.  A call that fails leaves no trace. -/
def machine : Machine State Call :=
  .ofAct (fun s call => (call.run s).toOption) fun s => s = ⟨none, none, false⟩

theorem orFail_eq_ok {α : Type} {x : Except CalcError α} {a : α} :
    orFail x = .ok a ↔ x = .ok a := by
  cases x with
  | error e => exact iff_of_false (fun h => by cases h) (fun h => by cases h)
  | ok b =>
    constructor
    · intro h
      cases h
      rfl
    · intro h
      cases h
      rfl

theorem toOption_validateTable (t : MultiplierTable) :
    (validateTable t).toOption = t.validateTable.toOption := by
  simp only [validateTable, MultiplierTable.validateTable, toOption_bind]
  refine congrArg₂ _ toOption_require (funext fun _ => ?_)
  refine congrArg₂ _ toOption_require (funext fun _ => ?_)
  refine congrArg₂ _ toOption_require (funext fun _ => ?_)
  refine congrArg₂ _ toOption_require (funext fun _ => ?_)
  refine congrArg₂ _ toOption_require (funext fun _ => ?_)
  refine congrArg₂ _ toOption_require (funext fun _ => ?_)
  exact toOption_require

theorem table_of_run {s s' : State} {call : Call} (h : call.run s = .ok s') :
    s'.table = s.table ∨ ∃ t, s'.table = some t ∧ t.validateTable = .ok () := by
  cases call with
  | init admin =>
    obtain ⟨-, -, h⟩ := bind_eq_ok.mp h
    cases h
    exact .inr ⟨_, rfl, by decide⟩
  | updateTable signers newTable =>
    simp only [Call.run, State.updateTable, bind_eq_ok, orFail_eq_ok] at h
    obtain ⟨-, -, -, -, -, -, -, -, _, hvalid, h⟩ := h
    cases h
    refine .inr ⟨newTable, rfl, ?_⟩
    rw [← toOption_eq_some, ← toOption_validateTable, hvalid]
    rfl
  | setPaused signers paused =>
    simp only [Call.run, State.setPaused, bind_eq_ok, orFail_eq_ok] at h
    obtain ⟨-, -, -, -, h⟩ := h
    cases h
    exact .inl rfl

theorem table_of_reach {s : State} (h : machine.Reach Machine.always s) :
    ∀ t, s.table = some t → t.validateTable = .ok () := by
  refine h.invariant (I := fun s => ∀ t, s.table = some t → t.validateTable = .ok ()) ?_ ?_
  · rintro s rfl t ht
    cases ht
  · intro s call s' _ hstep ih t ht
    rcases table_of_run (toOption_eq_some.mp hstep) with hsame | ⟨t', ht', hvalid⟩
    · exact ih t (hsame ▸ ht)
    · rw [ht'] at ht
      cases ht
      exact hvalid

/-- **What the deployed calculator answers**: while it is not paused, every input in range, and as
the local engine of the policy contract does with the same table. -/
theorem compute_of_reach {s : State} (h : machine.Reach Machine.always s) {t : MultiplierTable}
    (ht : s.table = some t) (hpaused : s.paused = false) {input : RiskInput} {b : Int}
    (hscore : input.safetyScore ≤ 100) (hbase : 0 < b) (hlimit : b ≤ 2 ^ 127 / (50000 * 140)) :
    ∃ p, s.compute input b = .ok p ∧ NiffyInsure.computePremium input b t = .ok p := by
  have hmax : b ≤ I128_MAX := hlimit.trans (by decide)
  obtain ⟨r, a, c, hpriced, -⟩ := priced_of_accepted ⟨table_of_reach h t ht, hscore, hbase, hlimit⟩
  have hlocal := (computePremium_eq_ok hmax).mpr ⟨r, a, c, hpriced, rfl⟩
  refine ⟨_, ?_, hlocal⟩
  have hcalc : s.compute input b = computePremium input b t := by
    rw [State.compute, require, if_pos hpaused, ht]
    rfl
  rw [hcalc, ← toOption_eq_some, toOption_computePremium, if_pos hscore, hlocal]
  rfl

/-- The calculator after its initialisation. -/
theorem compute_of_reach_initialized : ∃ s, machine.Reach Machine.always s ∧
    ∃ p, s.compute ⟨.medium, .adult, .standard, 50⟩ 10000000 = .ok p := by
  have h : machine.Reach Machine.always ⟨some 1, some defaultMultiplierTable, false⟩ :=
    .tail (.of_init rfl) (l := .init 1) trivial rfl
  have hscore : RiskInput.safetyScore ⟨.medium, .adult, .standard, 50⟩ ≤ 100 := by decide
  obtain ⟨p, hp, -⟩ := compute_of_reach h rfl rfl hscore (b := 10000000) (by decide) (by decide)
  exact ⟨_, h, p, hp⟩

end Calculator

end NiffyInsure
