import Mathlib.Algebra.BigOperators.Group.Finset.Piecewise
import Mathlib.Algebra.Order.Group.Int

/-!
# Transfers between accounts

Accounts hold amounts of assets, and an owner may allow a spender to take a part of what it holds.
A transfer takes an amount from one account to another, as the owner's own or out of an allowance.

* `Accounts.after`: the accounts after a list of transfers, one after the other.
* `Admissible`: no transfer takes more than is there, or more than is allowed.
* `sum_after`: accounts that contain both ends of every transfer hold the same sum as before.
* `le_balance_after`, `balance_drop_le`: who takes no part as a source loses nothing, and who is
  only taken from by a spender loses at most what the spender's allowance drops by.
-/

universe u v

namespace Transfers

/-- An amount of an asset goes from one account to another, with the spender if it is taken out of
an allowance. -/
structure Transfer (Asset : Type u) (Account : Type v) where
  asset : Asset
  source : Account
  target : Account
  amount : Int
  spender : Option Account

/-- What the accounts hold, and what an owner allows a spender to take. -/
structure Accounts (Asset : Type u) (Account : Type v) where
  balance : Asset → Account → Int
  allowance : Asset → Account → Account → Int

variable {Asset : Type u} {Account : Type v} [DecidableEq Asset] [DecidableEq Account]
  {b : Accounts Asset Account} {t : Transfer Asset Account} {ts : List (Transfer Asset Account)}
  {a : Asset} {x p : Account}

/-- What a transfer takes from an account. -/
def Transfer.debit (t : Transfer Asset Account) (a : Asset) (x : Account) : Int :=
  if a = t.asset ∧ x = t.source then t.amount else 0

/-- What a transfer brings to an account. -/
def Transfer.credit (t : Transfer Asset Account) (a : Asset) (x : Account) : Int :=
  if a = t.asset ∧ x = t.target then t.amount else 0

/-- What a transfer takes out of an allowance. -/
def Transfer.draw (t : Transfer Asset Account) (a : Asset) (x p : Account) : Int :=
  if a = t.asset ∧ x = t.source ∧ t.spender = some p then t.amount else 0

/-- The accounts after one transfer. -/
def Accounts.carry (b : Accounts Asset Account) (t : Transfer Asset Account) :
    Accounts Asset Account where
  balance a x := b.balance a x - t.debit a x + t.credit a x
  allowance a x p := b.allowance a x p - t.draw a x p

/-- The accounts after a list of transfers. -/
def Accounts.after (b : Accounts Asset Account) (ts : List (Transfer Asset Account)) :
    Accounts Asset Account :=
  ts.foldl Accounts.carry b

/-- No transfer takes more than is there, or more than is allowed. -/
def Admissible : Accounts Asset Account → List (Transfer Asset Account) → Prop
  | _, [] => True
  | b, t :: ts => (0 ≤ t.amount ∧ t.amount ≤ b.balance t.asset t.source ∧
      ∀ p, t.spender = some p → t.amount ≤ b.allowance t.asset t.source p) ∧
    Admissible (b.carry t) ts

@[simp] theorem after_nil (b : Accounts Asset Account) : b.after [] = b := rfl

@[simp] theorem after_cons (b : Accounts Asset Account) (t : Transfer Asset Account)
    (ts : List (Transfer Asset Account)) : b.after (t :: ts) = (b.carry t).after ts := rfl

theorem after_append (b : Accounts Asset Account) (ts ts' : List (Transfer Asset Account)) :
    b.after (ts ++ ts') = (b.after ts).after ts' := List.foldl_append

theorem Admissible.append : ∀ (ts : List (Transfer Asset Account))
    {ts' : List (Transfer Asset Account)}
    {b : Accounts Asset Account}, Admissible b ts → Admissible (b.after ts) ts' →
      Admissible b (ts ++ ts') := by
  intro ts
  induction ts with
  | nil => intro ts' b _ h; exact h
  | cons t ts ih => intro ts' b h h'; exact ⟨h.1, ih h.2 h'⟩

theorem Admissible.amount_nonneg : ∀ {ts : List (Transfer Asset Account)}
    {b : Accounts Asset Account}, Admissible b ts → ∀ t ∈ ts, 0 ≤ t.amount := by
  intro ts
  induction ts with
  | nil => intro b _ t ht; cases ht
  | cons t ts ih =>
    intro b h t' ht'
    cases ht' with
    | head => exact h.1.1
    | tail _ ht' => exact ih h.2 t' ht'

/-! ## Conservation -/

/-- A sum over accounts of which one is the source. -/
theorem sum_debit {S : Finset Account} (hs : t.source ∈ S) :
    ∑ x ∈ S, t.debit a x = if a = t.asset then t.amount else 0 := by
  by_cases ha : a = t.asset
  · simp [Transfer.debit, ha, hs]
  · simp [Transfer.debit, ha]

theorem sum_credit {S : Finset Account} (ht : t.target ∈ S) :
    ∑ x ∈ S, t.credit a x = if a = t.asset then t.amount else 0 := by
  by_cases ha : a = t.asset
  · simp [Transfer.credit, ha, ht]
  · simp [Transfer.credit, ha]

/-- **Transfers conserve every asset**: accounts that contain both ends of all of them hold together
what they held. -/
theorem sum_after {S : Finset Account} (a : Asset) : ∀ (ts : List (Transfer Asset Account))
    (b : Accounts Asset Account), (∀ t ∈ ts, t.source ∈ S ∧ t.target ∈ S) →
      ∑ x ∈ S, (b.after ts).balance a x = ∑ x ∈ S, b.balance a x := by
  intro ts
  induction ts with
  | nil => intro b _; rfl
  | cons t ts ih =>
    intro b hS
    obtain ⟨hsource, htarget⟩ := hS t (by simp)
    rw [after_cons, ih (b.carry t) fun t' ht' => hS t' (by simp [ht'])]
    show ∑ x ∈ S, (b.balance a x - t.debit a x + t.credit a x) = ∑ x ∈ S, b.balance a x
    rw [Finset.sum_add_distrib, Finset.sum_sub_distrib, sum_debit hsource, sum_credit htarget]
    omega

/-! ## Who loses -/

/-- An account that is the source of no transfer loses nothing. -/
theorem le_balance_after (a : Asset) (x : Account) : ∀ (ts : List (Transfer Asset Account))
    (b : Accounts Asset Account), (∀ t ∈ ts, 0 ≤ t.amount) → (∀ t ∈ ts, t.source ≠ x) →
      b.balance a x ≤ (b.after ts).balance a x := by
  intro ts
  induction ts with
  | nil => intro b _ _; exact le_refl _
  | cons t ts ih =>
    intro b hamount hsource
    have hpos := hamount t (by simp)
    have hcarry : b.balance a x ≤ (b.carry t).balance a x := by
      show b.balance a x ≤ b.balance a x - t.debit a x + t.credit a x
      have hne : x ≠ t.source := fun e => hsource t (by simp) e.symm
      unfold Transfer.debit Transfer.credit
      split <;> split <;> simp_all
    exact le_trans hcarry (ih _ (fun t' ht' => hamount t' (by simp [ht'])) fun t' ht' =>
      hsource t' (by simp [ht']))

/-- **What a spender takes it was allowed to take**: an account that transfers leave only by a
spender loses at most what the spender's allowance drops by. -/
theorem balance_drop_le (a : Asset) (x p : Account) : ∀ (ts : List (Transfer Asset Account))
    (b : Accounts Asset Account), (∀ t ∈ ts, 0 ≤ t.amount) →
      (∀ t ∈ ts, t.source = x → t.spender = some p) →
      b.balance a x - (b.after ts).balance a x ≤
      b.allowance a x p - (b.after ts).allowance a x p := by
  intro ts
  induction ts with
  | nil => intro b _ _; simp
  | cons t ts ih =>
    intro b hamount hspender
    have hpos := hamount t (by simp)
    have hrest := ih (b.carry t) (fun t' ht' => hamount t' (by simp [ht'])) fun t' ht' =>
      hspender t' (by simp [ht'])
    have hcarry : b.balance a x - (b.carry t).balance a x ≤
        b.allowance a x p - (b.carry t).allowance a x p := by
      show b.balance a x - (b.balance a x - t.debit a x + t.credit a x) ≤
        b.allowance a x p - (b.allowance a x p - t.draw a x p)
      have hcredit : 0 ≤ t.credit a x := by
        unfold Transfer.credit
        split <;> omega
      have hdraw : t.debit a x ≤ t.draw a x p := by
        unfold Transfer.debit Transfer.draw
        split
        · rename_i hd
          rw [if_pos ⟨hd.1, hd.2, hspender t (by simp) hd.2.symm⟩]
        · split <;> omega
      omega
    rw [after_cons]
    omega

end Transfers
