import NiffyInsure.Ledger

/-!
# The asset book under any sequence of its operations

The six operations of `ledger.rs` update a copy of the counters, one after the other, and store it
last.  Here they are written as the contract runs them, with every write to the storage in its
place, so that a call that fails leaves what it had written.

* `BookCall.refines`: an operation fails before it writes, or does what its counterpart in
  `Ledger.lean` does.
* `BookMove`: what one call does to the counters of one asset.
* `asset_book_of_calls`: the counters after any sequence of calls.
-/

namespace NiffyInsure

/-- A call that writes as it goes. -/
abbrev Writing := EStateM Fault State

/-! ## The operations -/

namespace Writing

/-- `ledger::load`. -/
def load (asset : Address) : Writing AssetLedger := do
  let s ← get
  return s.getAssetLedger asset

/-- `ledger::store`. -/
def store (asset : Address) (l : AssetLedger) : Writing Unit := modify (·.setAssetLedger asset l)

/-- `.ok_or(e)?`. -/
def okOr {α : Type} (x : Option α) (e : Error) : Writing α :=
  match x with
  | some a => pure a
  | none => throw (.error e)

variable (asset : Address) (amount : Int)

/-- `record_premium_in`. -/
def recordPremiumIn : Writing Unit :=
  if amount ≤ 0 then throw (.error .zeroTreasuryDeposit)
  else do
    let l ← load asset
    let treasuryBalance ← okOr (checkedAdd128 l.treasuryBalance amount) .overflow
    let l := { l with treasuryBalance }
    let totalPremiums ← okOr (checkedAdd128 l.totalPremiums amount) .overflow
    let l := { l with totalPremiums }
    store asset l

/-- `record_deposit`. -/
def recordDeposit : Writing Unit :=
  if amount ≤ 0 then throw (.error .zeroTreasuryDeposit)
  else do
    let l ← load asset
    let treasuryBalance ← okOr (checkedAdd128 l.treasuryBalance amount) .overflow
    store asset { l with treasuryBalance }

/-- `reserve_coverage`. -/
def reserveCoverage : Writing Unit :=
  if amount ≤ 0 then throw (.error .claimAmountZero)
  else do
    let l ← load asset
    let reservedCoverage ← okOr (checkedAdd128 l.reservedCoverage amount) .overflow
    store asset { l with reservedCoverage }

/-- `release_coverage`. -/
def releaseCoverage : Writing Unit :=
  if amount ≤ 0 then pure ()
  else do
    let l ← load asset
    if amount > l.reservedCoverage then throw (.error .insufficientTreasury)
    else
      let reservedCoverage ← okOr (checkedSub128 l.reservedCoverage amount) .overflow
      store asset { l with reservedCoverage }

/-- `record_payout_out`. -/
def recordPayoutOut (releaseReserved : Int) : Writing Unit :=
  if amount ≤ 0 then throw (.error .claimAmountZero)
  else do
    let l ← load asset
    let debit := if amount > l.treasuryBalance then l.treasuryBalance else amount
    let treasuryBalance ← okOr (checkedSub128 l.treasuryBalance debit) .overflow
    let l := { l with treasuryBalance }
    let totalPaid ← okOr (checkedAdd128 l.totalPaid amount) .overflow
    let l := { l with totalPaid }
    if releaseReserved > 0 then
      let rel := if releaseReserved > l.reservedCoverage then l.reservedCoverage
        else releaseReserved
      let reservedCoverage ← okOr (checkedSub128 l.reservedCoverage rel) .overflow
      store asset { l with reservedCoverage }
    else store asset l

/-- `record_sweep`. -/
def recordSweep : Writing Unit :=
  if amount ≤ 0 then throw (.error .zeroTreasuryDeposit)
  else do
    let l ← load asset
    let remaining ← okOr (checkedSub128 l.treasuryBalance amount) .overflow
    if remaining < l.reservedCoverage then throw (.error .insufficientTreasury)
    else store asset { l with treasuryBalance := remaining }

end Writing

/-- A call of one of the operations, for an asset. -/
inductive BookCall where
  | recordPremiumIn (asset : Address) (amount : Int)
  | recordDeposit (asset : Address) (amount : Int)
  | reserveCoverage (asset : Address) (amount : Int)
  | releaseCoverage (asset : Address) (amount : Int)
  | recordPayoutOut (asset : Address) (amount releaseReserved : Int)
  | recordSweep (asset : Address) (amount : Int)

namespace BookCall

/-- The call as the contract runs it. -/
def run : BookCall → Writing Unit
  | recordPremiumIn asset amount => Writing.recordPremiumIn asset amount
  | recordDeposit asset amount => Writing.recordDeposit asset amount
  | reserveCoverage asset amount => Writing.reserveCoverage asset amount
  | releaseCoverage asset amount => Writing.releaseCoverage asset amount
  | recordPayoutOut asset amount release => Writing.recordPayoutOut asset amount release
  | recordSweep asset amount => Writing.recordSweep asset amount

/-- The call as a function, which gives no state when it fails. -/
def exec (s : State) : BookCall → Result State
  | recordPremiumIn asset amount => s.recordPremiumIn asset amount
  | recordDeposit asset amount => s.recordDeposit asset amount
  | reserveCoverage asset amount => s.reserveCoverage asset amount
  | releaseCoverage asset amount => s.releaseCoverage asset amount
  | recordPayoutOut asset amount release => s.recordPayoutOut asset amount release
  | recordSweep asset amount => s.recordSweep asset amount

end BookCall

namespace State

variable (s : State)

/-- The call succeeds. -/
def books (c : BookCall) : Bool :=
  match c.run.run s with
  | .ok _ _ => true
  | .error _ _ => false

/-- The storage after a call, whether it succeeds or not. -/
def afterCall (c : BookCall) : State :=
  match c.run.run s with
  | .ok _ s' => s'
  | .error _ s' => s'

/-- The storage after a sequence of calls. -/
def book (calls : List BookCall) : State := calls.foldl afterCall s

/-- What the successful calls of a sequence add up to. -/
def booked (amountOf : State → BookCall → Int) : State → List BookCall → Int
  | _, [] => 0
  | s, c :: calls => (if s.books c then amountOf s c else 0) + booked amountOf (s.afterCall c) calls

end State

namespace BookCall

variable (asset : Address) (s : State)

/-- The premium that the call is about. -/
def premium : BookCall → Int
  | recordPremiumIn a amount => if a = asset then amount else 0
  | _ => 0

/-- The deposit that the call is about. -/
def deposit : BookCall → Int
  | recordDeposit a amount => if a = asset then amount else 0
  | _ => 0

/-- What the call takes off the treasury. -/
def debit : BookCall → Int
  | recordPayoutOut a amount _ =>
    if a = asset then min amount (s.getAssetLedger asset).treasuryBalance else 0
  | recordSweep a amount => if a = asset then amount else 0
  | _ => 0

end BookCall

/-! ## Nothing is written by a call that fails -/

/-- Run from `s`, the operation fails and leaves `s`, or it does what the function does. -/
def Writing.Refines (m : Writing Unit) (s : State) (r : Result State) : Prop :=
  m.run s =
    match r with
    | .ok s' => .ok () s'
    | .error e => .error e s

namespace Writing

variable {s : State} {asset : Address} {amount : Int} {r : Result State}

theorem refines_store (l : AssetLedger) :
    (store asset l).Refines s (pure (s.setAssetLedger asset l)) := rfl

theorem refines_load {f : AssetLedger → Writing Unit}
    (h : (f (s.getAssetLedger asset)).Refines s r) : (load asset >>= f).Refines s r := h

theorem refines_okOr {α : Type} {f : α → Writing Unit} {g : α → Result State} {x : Option α}
    {e : Error} (h : ∀ a, (f a).Refines s (g a)) :
    (okOr x e >>= f).Refines s (NiffyInsure.okOr x (.error e) >>= g) := by
  cases x with
  | none => rfl
  | some a => exact h a

theorem refines_ensure {p q : Prop} [Decidable p] [Decidable q] {m : Writing Unit} {e : Error}
    {g : Unit → Result State} (hpq : p ↔ ¬ q) (h : m.Refines s (g ())) :
    (if p then throw (.error e) else m : Writing Unit).Refines s (ensure q (.error e) >>= g) := by
  by_cases hq : q
  · rw [if_neg (fun hp => hpq.mp hp hq), ensure, if_pos hq]
    exact h
  · rw [if_pos (hpq.mpr hq), ensure, if_neg hq]
    rfl

theorem refines_ite {p : Prop} [Decidable p] {m m' : Writing Unit} {r' : Result State}
    (h : p → m.Refines s r) (h' : ¬ p → m'.Refines s r') :
    (if p then m else m').Refines s (if p then r else r') := by
  split
  · rename_i hp
    exact h hp
  · rename_i hp
    exact h' hp

theorem refines_recordPremiumIn :
    (recordPremiumIn asset amount).Refines s (s.recordPremiumIn asset amount) := by
  refine refines_ensure (by omega) (refines_load ?_)
  exact refines_okOr fun _ => refines_okOr fun _ => refines_store _

theorem refines_recordDeposit :
    (recordDeposit asset amount).Refines s (s.recordDeposit asset amount) := by
  refine refines_ensure (by omega) (refines_load ?_)
  exact refines_okOr fun _ => refines_store _

theorem refines_reserveCoverage :
    (reserveCoverage asset amount).Refines s (s.reserveCoverage asset amount) := by
  refine refines_ensure (by omega) (refines_load ?_)
  exact refines_okOr fun _ => refines_store _

theorem refines_releaseCoverage :
    (releaseCoverage asset amount).Refines s (s.releaseCoverage asset amount) := by
  refine refines_ite (fun _ => rfl) fun _ => refines_load ?_
  refine refines_ensure (by omega) ?_
  exact refines_okOr fun _ => refines_store _

theorem refines_recordPayoutOut {release : Int} :
    (recordPayoutOut asset amount release).Refines s (s.recordPayoutOut asset amount release) := by
  refine refines_ensure (by omega) (refines_load ?_)
  refine refines_okOr fun _ => refines_okOr fun _ => ?_
  by_cases hrelease : release > 0
  · simp only [if_pos hrelease]
    exact refines_okOr fun _ => refines_store _
  · simp only [if_neg hrelease]
    exact refines_store _

theorem refines_recordSweep :
    (recordSweep asset amount).Refines s (s.recordSweep asset amount) := by
  refine refines_ensure (by omega) (refines_load (refines_okOr fun _ => ?_))
  exact refines_ensure (by omega) (refines_store _)

end Writing

/-- **Every operation does what its function says, and writes nothing when it fails.** -/
theorem BookCall.refines (c : BookCall) (s : State) : c.run.Refines s (c.exec s) := by
  cases c with
  | recordPremiumIn => exact Writing.refines_recordPremiumIn
  | recordDeposit => exact Writing.refines_recordDeposit
  | reserveCoverage => exact Writing.refines_reserveCoverage
  | releaseCoverage => exact Writing.refines_releaseCoverage
  | recordPayoutOut => exact Writing.refines_recordPayoutOut
  | recordSweep => exact Writing.refines_recordSweep

section Calls

variable {s s' : State} {c : BookCall} {asset : Address}

theorem afterCall_of_ok (h : c.exec s = .ok s') : s.books c = true ∧ s.afterCall c = s' := by
  have hrun := c.refines s
  unfold Writing.Refines at hrun
  rw [h] at hrun
  rw [State.books, State.afterCall, hrun]
  exact ⟨rfl, rfl⟩

theorem afterCall_of_error {e : Fault} (h : c.exec s = .error e) :
    s.books c = false ∧ s.afterCall c = s := by
  have hrun := c.refines s
  unfold Writing.Refines at hrun
  rw [h] at hrun
  rw [State.books, State.afterCall, hrun]
  exact ⟨rfl, rfl⟩

/-! ## One call -/

/-- The counters are those of a book in range. -/
structure AssetLedger.InRange (l : AssetLedger) : Prop where
  treasury : 0 ≤ l.treasuryBalance ∧ l.treasuryBalance ≤ I128_MAX
  reserved : 0 ≤ l.reservedCoverage ∧ l.reservedCoverage ≤ I128_MAX
  premiums : 0 ≤ l.totalPremiums
  paid : 0 ≤ l.totalPaid

/-- The counters of an asset before and after a call. -/
structure BookMove (l l' : AssetLedger) (premium deposit debit : Int) : Prop where
  treasury : l'.treasuryBalance = l.treasuryBalance + premium + deposit - debit
  premiums : l'.totalPremiums = l.totalPremiums + premium
  grows : l.totalPremiums ≤ l'.totalPremiums ∧ l.totalPaid ≤ l'.totalPaid
  inRange : l'.InRange

theorem BookMove.refl {l : AssetLedger} (h : l.InRange) : BookMove l l 0 0 0 where
  treasury := by omega
  premiums := by omega
  grows := ⟨le_rfl, le_rfl⟩
  inRange := h

theorem getAssetLedger_set (a : Address) (l : AssetLedger) :
    (s.setAssetLedger a l).getAssetLedger asset = if a = asset then l
      else s.getAssetLedger asset := by
  split
  · rename_i heq
    rw [heq, State.getAssetLedger, State.setAssetLedger, State.get_set_self]
    rfl
  · rename_i hne
    have hkey : DataKey.assetLedger asset ≠ DataKey.assetLedger a := by simp [Ne.symm hne]
    rw [State.getAssetLedger, State.setAssetLedger, State.get_set_of_ne _ _ hkey]

/-- The counters of the asset are moved to those that are stored, and those of other assets are
not. -/
theorem bookMove_set {a : Address} {l : AssetLedger} {premium deposit debit : Int}
    (hr : (s.getAssetLedger asset).InRange)
    (hown : a = asset → BookMove (s.getAssetLedger asset) l premium deposit debit)
    (hother : a ≠ asset → premium = 0 ∧ deposit = 0 ∧ debit = 0) :
    BookMove (s.getAssetLedger asset) ((s.setAssetLedger a l).getAssetLedger asset) premium deposit
      debit := by
  rw [getAssetLedger_set]
  split
  case isTrue heq => exact hown heq
  case isFalse hne =>
    obtain ⟨rfl, rfl, rfl⟩ := hother hne
    exact .refl hr

/-- **What a successful call does to the counters of an asset.** -/
theorem bookMove_of_exec (h : c.exec s = .ok s') (hr : (s.getAssetLedger asset).InRange) :
    BookMove (s.getAssetLedger asset) (s'.getAssetLedger asset) (c.premium asset)
      (c.deposit asset) (c.debit asset s) := by
  have hmax : (0 : Int) ≤ I128_MAX := by decide
  have ⟨ht, hres, hprem, hpaid⟩ := hr
  cases c with
  | recordPremiumIn a amount =>
    obtain ⟨hpos, hfit, rfl⟩ := State.recordPremiumIn_eq_ok h
    refine bookMove_set hr ?_ fun hne => ⟨if_neg hne, rfl, rfl⟩
    rintro rfl
    dsimp only [BookCall.premium, BookCall.deposit, BookCall.debit]
    rw [if_pos rfl]
    exact ⟨by dsimp only; omega, rfl, ⟨by dsimp only; omega, le_rfl⟩,
      ⟨⟨by dsimp only; omega, hfit⟩, hres, by dsimp only; omega, hpaid⟩⟩
  | recordDeposit a amount =>
    obtain ⟨hpos, hfit, rfl⟩ := State.recordDeposit_eq_ok h
    refine bookMove_set hr ?_ fun hne => ⟨rfl, if_neg hne, rfl⟩
    rintro rfl
    dsimp only [BookCall.premium, BookCall.deposit, BookCall.debit]
    rw [if_pos rfl]
    exact ⟨by dsimp only; omega, by dsimp only; omega, ⟨le_rfl, le_rfl⟩,
      ⟨⟨by dsimp only; omega, hfit⟩, hres, hprem, hpaid⟩⟩
  | reserveCoverage a amount =>
    obtain ⟨hpos, hfit, rfl⟩ := State.reserveCoverage_eq_ok h
    refine bookMove_set hr ?_ fun _ => ⟨rfl, rfl, rfl⟩
    rintro rfl
    dsimp only [BookCall.premium, BookCall.deposit, BookCall.debit]
    exact ⟨by dsimp only; omega, by dsimp only; omega, ⟨le_rfl, le_rfl⟩,
      ⟨ht, ⟨by dsimp only; omega, hfit⟩, hprem, hpaid⟩⟩
  | releaseCoverage a amount =>
    by_cases hpos : 0 < amount
    · obtain ⟨hle, hfit, rfl⟩ := (State.releaseCoverage_eq_ok_iff hpos).mp h
      refine bookMove_set hr ?_ fun _ => ⟨rfl, rfl, rfl⟩
      rintro rfl
      dsimp only [BookCall.premium, BookCall.deposit, BookCall.debit]
      exact ⟨by dsimp only; omega, by dsimp only; omega, ⟨le_rfl, le_rfl⟩,
        ⟨ht, ⟨by dsimp only; omega, hfit⟩, hprem, hpaid⟩⟩
    · have hnone : s.releaseCoverage a amount = .ok s := if_pos (by omega)
      cases hnone.symm.trans h
      exact .refl hr
  | recordPayoutOut a amount release =>
    obtain ⟨hpos, rfl⟩ := State.recordPayoutOut_eq_ok h
    refine bookMove_set hr ?_ fun hne => ⟨rfl, rfl, if_neg hne⟩
    rintro rfl
    dsimp only [BookCall.premium, BookCall.deposit, BookCall.debit]
    rw [if_pos rfl]
    have hrelease : 0 ≤ s.payoutRelease a release ∧
        s.payoutRelease a release ≤ (s.getAssetLedger a).reservedCoverage := by
      unfold State.payoutRelease
      split <;> omega
    dsimp only [State.payoutLedger, State.payoutDebit]
    exact ⟨by dsimp only; omega, by dsimp only; omega, ⟨le_rfl, by dsimp only; omega⟩,
      ⟨⟨by dsimp only; omega, by dsimp only; omega⟩, ⟨by dsimp only; omega, by dsimp only; omega⟩,
        hprem, by dsimp only; omega⟩⟩
  | recordSweep a amount =>
    obtain ⟨hpos, ⟨-, hfit⟩, hcovers, rfl⟩ := State.recordSweep_eq_ok_iff.mp h
    refine bookMove_set hr ?_ fun hne => ⟨rfl, rfl, if_neg hne⟩
    rintro rfl
    dsimp only [BookCall.premium, BookCall.deposit, BookCall.debit]
    rw [if_pos rfl]
    exact ⟨by dsimp only; omega, by dsimp only; omega, ⟨le_rfl, le_rfl⟩,
      ⟨⟨by dsimp only; omega, hfit⟩, hres, hprem, hpaid⟩⟩

theorem bookMove_of_call (c : BookCall) (hr : (s.getAssetLedger asset).InRange) :
    BookMove (s.getAssetLedger asset) ((s.afterCall c).getAssetLedger asset)
      (if s.books c then c.premium asset else 0) (if s.books c then c.deposit asset else 0)
      (if s.books c then c.debit asset s else 0) := by
  cases hran : c.exec s with
  | ok s' =>
    obtain ⟨hbooks, hafter⟩ := afterCall_of_ok hran
    rw [hafter]
    simp only [hbooks, if_true]
    exact bookMove_of_exec hran hr
  | error e =>
    obtain ⟨hbooks, hafter⟩ := afterCall_of_error hran
    rw [hafter]
    simp only [hbooks, Bool.false_eq_true, if_false]
    exact .refl hr

theorem covered_of_recordSweep {amount : Int} (h : s.books (.recordSweep asset amount) = true) :
    ((s.afterCall (.recordSweep asset amount)).getAssetLedger asset).reservedCoverage ≤
      ((s.afterCall (.recordSweep asset amount)).getAssetLedger asset).treasuryBalance := by
  cases hran : (BookCall.recordSweep asset amount).exec s with
  | ok s' =>
    rw [(afterCall_of_ok hran).2]
    obtain ⟨-, -, hcovers, rfl⟩ := State.recordSweep_eq_ok_iff.mp hran
    rw [getAssetLedger_set, if_pos rfl]
    exact hcovers
  | error e =>
    rw [(afterCall_of_error hran).1] at h
    cases h

end Calls

/-! ## Any sequence of calls -/

section Sequences

variable {s : State} {asset : Address}

/-- **A sequence of calls moves the counters by what its successful calls book.** -/
theorem bookMove_of_calls (calls : List BookCall) (hr : (s.getAssetLedger asset).InRange) :
    BookMove (s.getAssetLedger asset) ((s.book calls).getAssetLedger asset)
      (s.booked (fun _ c => c.premium asset) calls) (s.booked (fun _ c => c.deposit asset) calls)
      (s.booked (fun s c => c.debit asset s) calls) := by
  induction calls generalizing s with
  | nil => exact .refl hr
  | cons c calls ih =>
    have hfirst := bookMove_of_call c hr
    have hrest := ih hfirst.inRange
    have htreasury := hfirst.treasury
    have hpremiums := hfirst.premiums
    have htreasury' := hrest.treasury
    have hpremiums' := hrest.premiums
    refine ⟨?_, ?_, ⟨hfirst.grows.1.trans hrest.grows.1, hfirst.grows.2.trans hrest.grows.2⟩,
      hrest.inRange⟩
    · show ((s.afterCall c).book calls |>.getAssetLedger asset).treasuryBalance = _
      rw [htreasury']
      simp only [State.booked]
      omega
    · show ((s.afterCall c).book calls |>.getAssetLedger asset).totalPremiums = _
      rw [hpremiums']
      simp only [State.booked]
      omega

theorem availableToSweep_eq (hr : (s.getAssetLedger asset).InRange) :
    s.availableToSweep asset =
      (s.getAssetLedger asset).treasuryBalance - (s.getAssetLedger asset).reservedCoverage := by
  have hmin : I128_MIN = -I128_MAX - 1 := by decide
  obtain ⟨ht, hres, -, -⟩ := hr
  rw [State.availableToSweep, saturatingSub128, clamp128]
  omega

/-- **The counters of every asset after any sequence of calls from zero**: none is negative; the
treasury holds what came in, as premiums and deposits, less what was taken off; the running totals
never go down; a successful sweep leaves the reservation covered; what can be swept is the
difference; and a call that fails changes nothing. -/
theorem asset_book_of_calls (hzero : ∀ asset, s.getAssetLedger asset = AssetLedger.zero)
    (calls : List BookCall) (asset : Address) :
    (0 ≤ ((s.book calls).getAssetLedger asset).treasuryBalance ∧
      0 ≤ ((s.book calls).getAssetLedger asset).reservedCoverage ∧
      0 ≤ ((s.book calls).getAssetLedger asset).totalPremiums ∧
      0 ≤ ((s.book calls).getAssetLedger asset).totalPaid) ∧
    ((s.book calls).getAssetLedger asset).treasuryBalance =
      s.booked (fun _ c => c.premium asset) calls + s.booked (fun _ c => c.deposit asset) calls -
        s.booked (fun s c => c.debit asset s) calls ∧
    (∀ more, ((s.book calls).getAssetLedger asset).totalPremiums ≤
        (((s.book calls).book more).getAssetLedger asset).totalPremiums ∧
      ((s.book calls).getAssetLedger asset).totalPaid ≤
        (((s.book calls).book more).getAssetLedger asset).totalPaid) ∧
    (∀ amount, (s.book calls).books (.recordSweep asset amount) = true →
      (((s.book calls).afterCall (.recordSweep asset amount)).getAssetLedger
        asset).reservedCoverage ≤ (((s.book calls).afterCall
          (.recordSweep asset amount)).getAssetLedger asset).treasuryBalance) ∧
    (s.book calls).availableToSweep asset = ((s.book calls).getAssetLedger asset).treasuryBalance -
      ((s.book calls).getAssetLedger asset).reservedCoverage ∧
    ∀ c, (s.book calls).books c = false → (s.book calls).afterCall c = s.book calls := by
  have hmax : (0 : Int) ≤ I128_MAX := by decide
  have hr : (s.getAssetLedger asset).InRange := by
    rw [hzero asset]
    exact ⟨⟨le_rfl, hmax⟩, ⟨le_rfl, hmax⟩, le_rfl, le_rfl⟩
  have hmove := bookMove_of_calls calls hr
  have hin := hmove.inRange
  have htreasury := hmove.treasury
  refine ⟨⟨hin.treasury.1, hin.reserved.1, hin.premiums, hin.paid⟩, ?_, ?_, ?_, ?_, ?_⟩
  · rw [htreasury, hzero asset]
    show 0 + _ + _ - _ = _
    omega
  · exact fun more => (bookMove_of_calls more hin).grows
  · exact fun _ => covered_of_recordSweep
  · exact availableToSweep_eq hin
  · intro c hc
    cases hran : c.exec (s.book calls) with
    | ok s' =>
      rw [(afterCall_of_ok hran).1] at hc
      cases hc
    | error e => exact (afterCall_of_error hran).2

/-- A storage without an entry. -/
def emptyBook : State := ⟨∅, fun _ _ => 0, fun _ _ _ => 0, 0, [], []⟩

/-- A premium of 100, a reservation of 60, a payout of 30 and a sweep of 10 leave a treasury
of 60. -/
theorem asset_book_of_four_calls :
    (∀ asset, emptyBook.getAssetLedger asset = AssetLedger.zero) ∧
      ((emptyBook.book [.recordPremiumIn 1 100, .reserveCoverage 1 60, .recordPayoutOut 1 30 0,
        .recordSweep 1 10]).getAssetLedger 1).treasuryBalance = 60 ∧
      0 ≤ ((emptyBook.book [.recordPremiumIn 1 100, .reserveCoverage 1 60, .recordPayoutOut 1 30 0,
        .recordSweep 1 10]).getAssetLedger 1).treasuryBalance :=
  ⟨fun _ => rfl, by decide, (asset_book_of_calls (fun _ => rfl) _ 1).1.1⟩

end Sequences

end NiffyInsure
