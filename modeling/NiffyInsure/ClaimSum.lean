import Mathlib.Algebra.Order.Group.Int
import NiffyInsure.ClaimEdit

/-!
# Sums over the stored claims

`State.claimSum s f` adds up `f` over the claims in storage.  A filed claim adds its term
(`claimSum_of_file`), a claim that is written over exchanges its term (`claimSum_of_write`), and
where every claim is edited the sums compare as the terms do (`claimSum_le_of_edited`,
`claimSum_eq_of_edited`).
-/

namespace NiffyInsure

open KeyedStore

/-- What an entry adds to the sum of `f` over the claims. -/
def claimTerm (f : Claim → Int) : (k : DataKey) → k.Val → Int
  | .claim _, claim => f claim
  | _, _ => 0

/-- The sum of `f` over the stored claims. -/
def State.claimSum (s : State) (f : Claim → Int) : Int := total (claimTerm f) s.storage

section Sums

variable {s s' : State} {f g : Claim → Int}

theorem claimTerm_eq_zero (k : DataKey) (v : k.Val) (hk : ¬ k.kind = .claim) :
    claimTerm f k v = 0 := by
  unfold claimTerm
  split
  · exact absurd rfl hk
  · rfl

/-- Two sums over claims compare as they do claim by claim. -/
theorem claimSum_le_of_shares
    (h : ∀ id, share (claimTerm f) (.claim id) (s.getClaim id) ≤
      share (claimTerm g) (.claim id) (s'.getClaim id)) : s.claimSum f ≤ s'.claimSum g := by
  refine total_le_total fun k => ?_
  by_cases hk : k.kind = .claim
  · cases k with
    | claim id => exact h id
    | _ => cases hk
  · have hzero : ∀ (f : Claim → Int) (o : Option k.Val), share (claimTerm f) k o = 0 := by
      intro f o
      cases o with
      | none => rfl
      | some v => exact claimTerm_eq_zero k v hk
    rw [hzero, hzero]

theorem claimSum_of_same (h : SameKind .claim s s') (f : Claim → Int) :
    s'.claimSum f = s.claimSum f :=
  AgreeOn.total_eq (P := fun k => k.kind = .claim) (fun k hk => h k hk) claimTerm_eq_zero

theorem claimSum_mono (h : ∀ id claim, s.getClaim id = some claim → f claim ≤ g claim) :
    s.claimSum f ≤ s.claimSum g := by
  refine claimSum_le_of_shares fun id => ?_
  cases hclaim : s.getClaim id with
  | none => exact le_refl 0
  | some claim => exact h id claim hclaim

theorem claimSum_eq_zero (h : ∀ id claim, s.getClaim id = some claim → f claim = 0) :
    s.claimSum f = 0 := by
  refine total_eq_zero fun k v hv => ?_
  unfold claimTerm
  split
  · rename_i id claim
    exact h id claim hv
  · rfl

theorem claimSum_add (f g : Claim → Int) :
    s.claimSum (fun c => f c + g c) = s.claimSum f + s.claimSum g := by
  unfold State.claimSum total
  rw [← List.sum_map_add]
  congr 1
  refine List.map_congr_left fun e _ => ?_
  unfold claimTerm
  split <;> simp

/-- Every claim is edited, and no term grows. -/
theorem claimSum_le_of_edited (h : ClaimsEdited s s')
    (hle : ∀ id claim claim', s.getClaim id = some claim → s'.getClaim id = some claim' →
      g claim' ≤ f claim) : s'.claimSum g ≤ s.claimSum f := by
  refine claimSum_le_of_shares fun id => ?_
  cases hclaim : s.getClaim id with
  | none =>
    rw [h.unfiled id hclaim]
    exact le_refl 0
  | some claim =>
    obtain ⟨claim', hclaim', -⟩ := h.moved id claim hclaim
    rw [hclaim']
    exact hle id claim claim' hclaim hclaim'

/-- Every claim is edited, and no term changes. -/
theorem claimSum_eq_of_edited (h : ClaimsEdited s s')
    (heq : ∀ id claim claim', s.getClaim id = some claim → s'.getClaim id = some claim' →
      f claim' = f claim) : s'.claimSum f = s.claimSum f := by
  refine le_antisymm (claimSum_le_of_edited h fun id c c' hc hc' => (heq id c c' hc hc').le) ?_
  refine claimSum_le_of_shares fun id => ?_
  cases hclaim : s.getClaim id with
  | none =>
    rw [h.unfiled id hclaim]
  | some claim =>
    obtain ⟨claim', hclaim', -⟩ := h.moved id claim hclaim
    rw [hclaim']
    exact (heq id claim claim' hclaim hclaim').ge

theorem claimSum_of_write {claim claim' : Claim} (hclaim : s.getClaim claim'.claimId = some claim)
    (h : SameKind .claim (s.setClaim claim') s') (f : Claim → Int) :
    f claim + s'.claimSum f = f claim' + s.claimSum f := by
  have hadd := total_insert_add (claimTerm f) s.storage (.claim claim'.claimId) claim'
  have hlook : s.storage.lookup (.claim claim'.claimId) = some claim := hclaim
  rw [hlook, share_some] at hadd
  rw [claimSum_of_same h]
  exact hadd

theorem claimSum_of_file {claim : Claim} (hnone : s.getClaim claim.claimId = none)
    (h : SameKind .claim (s.setClaim claim) s') (f : Claim → Int) :
    s'.claimSum f = f claim + s.claimSum f := by
  have hadd := total_insert_add (claimTerm f) s.storage (.claim claim.claimId) claim
  have hlook : s.storage.lookup (.claim claim.claimId) = none := hnone
  rw [hlook, share_none, zero_add] at hadd
  rw [claimSum_of_same h]
  exact hadd

end Sums

end NiffyInsure
