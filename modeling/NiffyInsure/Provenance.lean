import NiffyInsure.ClaimEdit
import NiffyInsure.PolicyStep
import NiffyInsure.Trace

/-!
# The policy behind a claim

A claim names its policy by the key `(claimant, policy_id)`, and `transfer_policy` takes the record
away from that key and may put another one there.  It is refused while the open-claim flag of the
policy is set, but that flag is cleared when the claim is approved: from then to the payout nothing
keeps the policy in its place.

A run is followed with a history that gives every bound policy a serial number and notes on which
policy each claim was filed (`Provenance`).

* `serials_distinct_of_reach`: two stored policies have different serials.
* `attached_of_reach`: where no transfer touches the policy of a claim that may still be paid,
  such a claim finds the policy that it was filed against.
* `claims_keep_policy_of_reach`: so the payout entrypoints find it, and pay what it says.
-/

namespace NiffyInsure

open Machine

/-! ## Serial numbers -/

/-- Every bound policy has a serial number: how many there are, which one is stored at a key, and
on which one a claim was filed. -/
structure Provenance where
  bound : Nat
  serial : Address × Nat → Nat
  filedOn : Nat → Nat

def Provenance.empty : Provenance := ⟨0, fun _ => 0, fun _ => 0⟩

/-- What a step notes down: a bound policy gets the next serial, a transferred one takes its serial
along, and a filed claim is on the policy that is stored at its key. -/
def Provenance.note (s : State) (l : Label) (g : Provenance) : Provenance :=
  match l with
  | .call _ (.policy (.initiatePolicy a)) =>
    { g with
      bound := g.bound + 1
      serial := Function.update g.serial (a.holder, s.getPolicyCounter a.holder + 1) g.bound }
  | .call _ (.policy (.transferPolicy holder policyId newHolder)) =>
    { g with
      serial := Function.update g.serial (newHolder, policyId) (g.serial (holder, policyId)) }
  | .call _ (.claim (.fileClaim holder policyId ..)) =>
    { g with
      filedOn := Function.update g.filedOn (s.getClaimCounter + 1) (g.serial (holder, policyId)) }
  | _ => g

/-- The contract on `host`, followed with the serials. -/
def traced (host : Host) : Machine (State × Provenance) Label :=
  (contract host).withHistory .empty Provenance.note

/-- The policies that are stored have different serials, all of them given out. -/
structure SerialsDistinct (p : State × Provenance) : Prop where
  given : ∀ a id policy, p.1.getPolicy a id = some policy → p.2.serial (a, id) < p.2.bound
  distinct : ∀ a id policy b id' policy', p.1.getPolicy a id = some policy →
    p.1.getPolicy b id' = some policy' → p.2.serial (a, id) = p.2.serial (b, id') →
    (a, id) = (b, id')

/-- The calls that neither bind nor move a policy. -/
def Label.keepsKeys : Label → Bool
  | .call _ (.policy (.initiatePolicy _)) | .call _ (.policy (.transferPolicy ..)) => false
  | _ => true

section Serials

variable {env : Env} {s s' : State}

/-- Every policy stays stored, and no other one appears. -/
def SamePolicyKeys (s s' : State) : Prop :=
  ∀ a id, s'.getPolicy a id = none ↔ s.getPolicy a id = none

theorem samePolicyKeys_of_edits (h : EditsPolicies s s') : SamePolicyKeys s s' := by
  refine h.keeps (I := SamePolicyKeys s) ?_ fun _ _ => Iff.rfl
  rintro s₁ s₂ (hsame | ⟨holder, policyId, p, p', hget, -, hwrite⟩) hs₁ a id
  · rw [getPolicy_of_same hsame]
    exact hs₁ a id
  · rw [← hs₁ a id, getPolicy_of_write hwrite]
    split
    · rename_i heq
      obtain ⟨rfl, rfl⟩ := heq
      simp [hget]
    · exact Iff.rfl

theorem samePolicyKeys_of_step {host : Host} {l : Label} (h : (contract host).step s l s')
    (hl : l.keepsKeys = true) : SamePolicyKeys s s' := by
  cases l with
  | closeLedger n =>
    obtain ⟨-, -, rfl⟩ := h
    exact fun _ _ => Iff.rfl
  | tokens b a =>
    obtain ⟨-, rfl⟩ := h
    exact fun _ _ => Iff.rfl
  | call env c =>
    obtain ⟨-, h⟩ := h
    cases c with
    | claim c => exact samePolicyKeys_of_edits (editsPolicies_of_claimCall h)
    | treasury c =>
      refine samePolicyKeys_of_edits (.of_same ?_)
      exact (frame_treasuryCall h).sameKind (c.untouched rfl)
    | setting c => exact samePolicyKeys_of_edits (.of_same ((frame_setting h).sameKind rfl))
    | governance c =>
      refine samePolicyKeys_of_edits (.of_same ?_)
      exact (frame_governanceCall h).sameKind (c.untouched rfl)
    | policy c =>
      change c.exec env s = .ok s' at h
      cases c with
      | initiatePolicy | transferPolicy => cases hl
      | renewPolicy a =>
        obtain ⟨o, hran⟩ := policyRan_of_exec h
        obtain hf | ⟨policy, premium, s₁, s₂, -, hget, -, -, -, -, -, -, hrec, -⟩ :=
          renewPolicy_eq_ok hran
        · exact samePolicyKeys_of_edits (.of_same (hf.sameKind rfl))
        · intro b id
          rw [getPolicy_of_write hrec]
          split
          · rename_i heq
            obtain ⟨rfl, rfl⟩ := heq
            simp [hget]
          · exact Iff.rfl
      | _ => exact samePolicyKeys_of_edits (editsPolicies_of_policyCall h rfl)

theorem serial_note {l : Label} (hl : l.keepsKeys = true) (g : Provenance) :
    (Provenance.note s l g).serial = g.serial ∧ (Provenance.note s l g).bound = g.bound := by
  unfold Provenance.note
  split
  · cases hl
  · cases hl
  · exact ⟨rfl, rfl⟩
  · exact ⟨rfl, rfl⟩

theorem serialsDistinct_of_initiate {a : InitiatePolicyArgs} {policy : Policy} {g : Provenance}
    (hran : initiatePolicy env s a = .ok (policy, s')) (hs : SerialsDistinct (s, g)) :
    SerialsDistinct (s', Provenance.note s (.call env (.policy (.initiatePolicy a))) g) := by
  obtain ⟨hrec, hholder, hid, -⟩ := initiatePolicy_records hran
  rw [hholder, hid] at hrec
  have hread := getPolicy_of_write hrec
  constructor
  · intro b id q hq
    change Function.update g.serial _ g.bound (b, id) < g.bound + 1
    rw [Function.update_apply]
    split
    · exact Nat.lt_succ_self _
    · rename_i hne
      rw [hread, if_neg (fun heq => hne (Prod.ext heq.1 heq.2))] at hq
      exact Nat.lt_succ_of_lt (hs.given b id q hq)
  · intro b id q b' id' q' hq hq'
    change Function.update g.serial _ g.bound (b, id) =
      Function.update g.serial _ g.bound (b', id') → _
    rw [Function.update_apply, Function.update_apply]
    split
    · rename_i heq
      split
      · rename_i heq'
        exact fun _ => heq.trans heq'.symm
      · rename_i hne'
        -- the other policy was there before, under a smaller serial
        rw [hread, if_neg (fun heq => hne' (Prod.ext heq.1 heq.2))] at hq'
        have hlt := hs.given b' id' q' hq'
        intro hser
        change g.serial (b', id') < g.bound at hlt
        omega
    · rename_i hne
      rw [hread, if_neg (fun heq => hne (Prod.ext heq.1 heq.2))] at hq
      split
      · have hlt := hs.given b id q hq
        intro hser
        change g.serial (b, id) < g.bound at hlt
        omega
      · rename_i hne'
        rw [hread, if_neg (fun heq => hne' (Prod.ext heq.1 heq.2))] at hq'
        exact hs.distinct b id q b' id' q' hq hq'

theorem serialsDistinct_of_transfer {holder newHolder : Address} {policyId : Nat} {g : Provenance}
    (hran : transferPolicy env s holder policyId newHolder = .ok s') (hs : SerialsDistinct (s, g)) :
    SerialsDistinct
      (s', Provenance.note s (.call env (.policy (.transferPolicy holder policyId newHolder)))
        g) := by
  obtain ⟨policy, hget, -, hne, hrec, -⟩ := transferPolicy_records hran
  have hread := getPolicy_of_move hne hrec
  -- a stored key other than the new one was stored before, and is not the old one
  have hother : ∀ b id q, s'.getPolicy b id = some q → (b, id) ≠ (newHolder, policyId) →
      s.getPolicy b id = some q ∧ (b, id) ≠ (holder, policyId) := by
    intro b id q hq hkey
    rw [hread] at hq
    split at hq
    · cases hq
    · rename_i hold
      rw [if_neg (fun heq => hkey (Prod.ext heq.1 heq.2))] at hq
      refine ⟨hq, ?_⟩
      intro heq
      exact hold ⟨congrArg Prod.fst heq, congrArg Prod.snd heq⟩
  constructor
  · intro b id q hq
    change Function.update g.serial _ _ (b, id) < g.bound
    rw [Function.update_apply]
    split
    · exact hs.given holder policyId policy hget
    · rename_i hkey
      exact hs.given b id q (hother b id q hq hkey).1
  · intro b id q b' id' q' hq hq'
    change Function.update g.serial _ _ (b, id) = Function.update g.serial _ _ (b', id') → _
    rw [Function.update_apply, Function.update_apply]
    split
    · rename_i heq
      split
      · rename_i heq'
        exact fun _ => heq.trans heq'.symm
      · rename_i hne'
        obtain ⟨hold', hnot'⟩ := hother b' id' q' hq' hne'
        intro hser
        exact absurd (hs.distinct _ _ _ _ _ _ hget hold' hser).symm hnot'
    · rename_i hkey
      obtain ⟨hold, hnot⟩ := hother b id q hq hkey
      split
      · intro hser
        exact absurd (hs.distinct _ _ _ _ _ _ hold hget hser) hnot
      · rename_i hkey'
        exact hs.distinct b id q b' id' q' hold (hother b' id' q' hq' hkey').1

theorem serialsDistinct_of_keys {l : Label} {g : Provenance} (hl : l.keepsKeys = true)
    (hkeys : SamePolicyKeys s s') (hs : SerialsDistinct (s, g)) :
    SerialsDistinct (s', Provenance.note s l g) := by
  obtain ⟨hserial, hbound⟩ := serial_note (s := s) hl g
  have hback : ∀ b id q, s'.getPolicy b id = some q → ∃ q', s.getPolicy b id = some q' := by
    intro b id q hq
    cases hold : s.getPolicy b id with
    | some q' => exact ⟨q', rfl⟩
    | none =>
      rw [(hkeys b id).mpr hold] at hq
      cases hq
  constructor
  · intro b id q hq
    obtain ⟨q', hq'⟩ := hback b id q hq
    simp only [hserial, hbound]
    exact hs.given b id q' hq'
  · intro b id q b' id' q' hq hq'
    obtain ⟨r, hr⟩ := hback b id q hq
    obtain ⟨r', hr'⟩ := hback b' id' q' hq'
    simp only [hserial]
    exact hs.distinct b id r b' id' r' hr hr'

end Serials

/-- **A serial names one stored policy**, in every run. -/
theorem serials_distinct_of_reach {host : Host} {p : State × Provenance}
    (h : (traced host).Reach always p) : SerialsDistinct p := by
  refine h.invariant (I := SerialsDistinct) ?_ ?_
  · rintro ⟨s, g⟩ ⟨hs, -⟩
    constructor
    · intro a id policy hp
      simp [State.getPolicy, State.Fresh.get host hs] at hp
    · intro a id policy b id' policy' hp
      simp [State.getPolicy, State.Fresh.get host hs] at hp
  · rintro ⟨s, g⟩ l ⟨s', g'⟩ - ⟨hstep, rfl⟩ hs
    cases hl : l.keepsKeys with
    | true => exact serialsDistinct_of_keys hl (samePolicyKeys_of_step hstep hl) hs
    | false =>
      unfold Label.keepsKeys at hl
      split at hl
      · obtain ⟨-, h⟩ := hstep
        obtain ⟨policy, hran⟩ := dropValue_eq_ok.mp h
        exact serialsDistinct_of_initiate hran hs
      · exact serialsDistinct_of_transfer hstep.2 hs
      · cases hl

/-! ## Claims that may still be paid -/

/-- The claim is undecided or approved, or it is rejected and an appeal can still be opened. -/
def Claim.MayPay (claim : Claim) (now : Nat) : Prop :=
  claim.status.isTerminal = false ∨ claim.status = .approved ∨ claim.status = .appealApproved ∨
    (claim.status = .rejected ∧ now ≤ claim.appealOpenDeadlineLedger)

instance (claim : Claim) (now : Nat) : Decidable (claim.MayPay now) := by
  unfold Claim.MayPay
  infer_instance

theorem mayPay_of_edit {now : Nat} {c c' : Claim} (h : c.Edit now c') (hpay : c'.MayPay now) :
    c.MayPay now := by
  cases h with
  | tally vote => cases vote <;> exact hpay
  | evidence e hst => exact .inl (by rw [hst]; rfl)
  | escalate d hst => exact .inl (by rw [hst]; rfl)
  | withdraw hst => exact .inl (by rw [hst]; rfl)
  | close outcome x y z hst => exact .inl hst
  | process failed hst => exact .inr (hst.imp_right .inl)
  | timeout hst => exact .inr (.inl hst)
  | dispute hst => exact .inr (.inl hst)
  | installment amount hst => exact .inr (.inl hst)
  | lastInstallment amount hst => exact .inr (.inl hst)
  | appeal deadline hst hopen => exact .inr (.inr (.inr ⟨hst, hopen⟩))
  | tallyAppeal vote hst => exact .inl (by rw [hst]; rfl)
  | closeAppeal outcome x y hst => exact .inl (by rw [hst]; rfl)

theorem mayPay_of_edits {now : Nat} {c c' : Claim} (h : Claim.Edits now c c')
    (hpay : c'.MayPay now) : c.MayPay now :=
  h.lift (R := fun a b => b.MayPay now → a.MayPay now) (fun _ => id)
    (fun _ _ _ hab hbc => hab ∘ hbc) (fun _ _ => mayPay_of_edit) hpay

theorem mayPay_of_le {n m : Nat} {c : Claim} (hle : n ≤ m) (h : c.MayPay m) : c.MayPay n := by
  rcases h with h | h | h | ⟨h, hopen⟩
  · exact .inl h
  · exact .inr (.inl h)
  · exact .inr (.inr (.inl h))
  · exact .inr (.inr (.inr ⟨h, Nat.le_trans hle hopen⟩))

/-- A transfer neither takes away nor replaces the policy of a claim that may still be paid. -/
def SparesClaims (s : State) : Label → Prop
  | .call _ (.policy (.transferPolicy holder policyId newHolder)) =>
    ∀ claim ∈ s.claims, claim.MayPay s.sequence → claim.policyId = policyId →
      claim.claimant ≠ holder ∧ claim.claimant ≠ newHolder
  | _ => True

/-- Every claim that may still be paid finds the policy that it was filed against. -/
def Attached (p : State × Provenance) : Prop :=
  ∀ id claim, p.1.getClaim id = some claim → claim.MayPay p.1.sequence →
    p.1.getPolicy claim.claimant claim.policyId ≠ none ∧
      p.2.serial (claim.claimant, claim.policyId) = p.2.filedOn id

section Attached

variable {env : Env} {s s' : State} {g : Provenance}

theorem attached_of_edited (hedited : ClaimsEdited s s') (hseq : s'.sequence = s.sequence)
    (hkeys : SamePolicyKeys s s') (hs : Attached (s, g)) : Attached (s', g) := by
  intro id claim hclaim hpay
  cases hold : s.getClaim id with
  | none =>
    rw [hedited.unfiled id hold] at hclaim
    cases hclaim
  | some claim₀ =>
    obtain ⟨claim', hclaim', hedits⟩ := hedited.moved id claim₀ hold
    rw [hclaim'] at hclaim
    cases hclaim
    change claim.MayPay s'.sequence at hpay
    rw [hseq] at hpay
    obtain ⟨hstored, hserial⟩ := hs id claim₀ hold (mayPay_of_edits hedits hpay)
    have hterms := hedits.sameTerms
    rw [hterms.claimant, hterms.policyId]
    exact ⟨fun hnone => hstored ((hkeys _ _).mp hnone), hserial⟩

theorem attached_of_file {holder : Address} {policyId claimId : Nat} {amount : Int} {details : Str}
    {evidence : List ClaimEvidenceEntry} {expectedNonce : Option Nat}
    (hran : fileClaim env s holder policyId amount details evidence expectedNonce =
      .ok (claimId, s'))
    (hf : s'.sequence = s.sequence) (hk : s.ClaimsKeyed) (hkeys : SamePolicyKeys s s')
    (hs : Attached (s, g)) :
    Attached (s', { g with
      filedOn := Function.update g.filedOn (s.getClaimCounter + 1) (g.serial (holder, policyId))
      }) := by
  obtain ⟨policy, voters, deadline, hpolicy, -, -, rfl, -, -, hrec, -⟩ := fileClaim_eq_ok hran
  intro id claim hclaim hpay
  change s'.getClaim id = some claim at hclaim
  change s'.getPolicy claim.claimant claim.policyId ≠ none ∧ g.serial _ =
    Function.update g.filedOn (s.getClaimCounter + 1) (g.serial (holder, policyId)) id
  rw [getClaim_of_write hrec] at hclaim
  split at hclaim
  · rename_i heq
    cases hclaim
    refine ⟨?_, ?_⟩
    · intro hnone
      rw [(hkeys holder policyId).mp hnone] at hpolicy
      cases hpolicy
    · have hid : id = s.getClaimCounter + 1 := heq
      rw [hid, Function.update_self]
      rfl
  · rename_i hne
    have hle := (hk id claim hclaim).2
    change claim.MayPay s'.sequence at hpay
    rw [hf] at hpay
    obtain ⟨hstored, hserial⟩ := hs id claim hclaim hpay
    refine ⟨fun hnone => hstored ((hkeys _ _).mp hnone), ?_⟩
    rw [Function.update_of_ne (by omega)]
    exact hserial

theorem attached_of_initiate {a : InitiatePolicyArgs} {policy : Policy}
    (hran : initiatePolicy env s a = .ok (policy, s')) (hclaims : SameKind .claim s s')
    (hseq : s'.sequence = s.sequence) (hs : Attached (s, g)) :
    Attached (s', Provenance.note s (.call env (.policy (.initiatePolicy a))) g) := by
  obtain ⟨hrec, hholder, hid, -⟩ := initiatePolicy_records hran
  obtain ⟨-, -, -, -, -, -, -, -, -, -, -, -, -, hfree, -⟩ := initiatePolicy_eq_ok hran
  rw [hholder, hid] at hrec
  rw [hid] at hfree
  intro id claim hclaim hpay
  change s'.getClaim id = some claim at hclaim
  change claim.MayPay s'.sequence at hpay
  rw [getClaim_of_same hclaims] at hclaim
  rw [hseq] at hpay
  obtain ⟨hstored, hserial⟩ := hs id claim hclaim hpay
  -- the key of the new policy was free, so no such claim is on it
  have hkey : ¬ (claim.claimant = a.holder ∧ claim.policyId = s.getPolicyCounter a.holder + 1) := by
    rintro ⟨hc, hp⟩
    change s.getPolicy claim.claimant claim.policyId ≠ none at hstored
    rw [hc, hp] at hstored
    exact hstored hfree
  change s'.getPolicy claim.claimant claim.policyId ≠ none ∧
    Function.update g.serial (a.holder, s.getPolicyCounter a.holder + 1) g.bound
      (claim.claimant, claim.policyId) = g.filedOn id
  rw [getPolicy_of_write hrec, if_neg hkey, Function.update_of_ne]
  · exact ⟨hstored, hserial⟩
  · intro heq
    exact hkey ⟨congrArg Prod.fst heq, congrArg Prod.snd heq⟩

theorem attached_of_transfer {holder newHolder : Address} {policyId : Nat}
    (hran : transferPolicy env s holder policyId newHolder = .ok s')
    (hok : SparesClaims s (.call env (.policy (.transferPolicy holder policyId newHolder))))
    (hclaims : SameKind .claim s s') (hseq : s'.sequence = s.sequence) (hs : Attached (s, g)) :
    Attached
      (s', Provenance.note s (.call env (.policy (.transferPolicy holder policyId newHolder)))
        g) := by
  obtain ⟨policy, -, -, hne, hrec, -⟩ := transferPolicy_records hran
  intro id claim hclaim hpay
  change s'.getClaim id = some claim at hclaim
  change claim.MayPay s'.sequence at hpay
  rw [getClaim_of_same hclaims] at hclaim
  rw [hseq] at hpay
  obtain ⟨hstored, hserial⟩ := hs id claim hclaim hpay
  have hspared := hok claim (mem_claims.mpr ⟨id, hclaim⟩) hpay
  change s'.getPolicy claim.claimant claim.policyId ≠ none ∧
    Function.update g.serial (newHolder, policyId) (g.serial (holder, policyId))
      (claim.claimant, claim.policyId) = g.filedOn id
  rw [getPolicy_of_move hne hrec, if_neg (fun heq => (hspared heq.2).1 heq.1),
    if_neg (fun heq => (hspared heq.2).2 heq.1), Function.update_of_ne]
  · exact ⟨hstored, hserial⟩
  · intro heq
    exact (hspared (congrArg Prod.snd heq)).2 (congrArg Prod.fst heq)

/-- **One step keeps the claims attached**, if a transfer spares them. -/
theorem attached_of_step {host : Host} {l : Label} (hstep : (contract host).step s l s')
    (hok : SparesClaims s l) (hk : s.ClaimsKeyed) (hs : Attached (s, g)) :
    Attached (s', Provenance.note s l g) := by
  cases l with
  | closeLedger n =>
    obtain ⟨hle, -, rfl⟩ := hstep
    intro id claim hclaim hpay
    exact hs id claim hclaim (mayPay_of_le hle hpay)
  | tokens b a =>
    obtain ⟨-, rfl⟩ := hstep
    exact hs
  | call env c =>
    have hseq := (frame_exec hstep.2).sequence
    cases c with
    | claim c =>
      have hkeys := samePolicyKeys_of_step hstep rfl
      have h : c.exec env s = .ok s' := hstep.2
      cases c with
      | fileClaim =>
        obtain ⟨claimId, hran⟩ := ran_of_exec h
        exact attached_of_file hran hseq hk hkeys hs
      | _ => exact attached_of_edited (claimsEdited_of_claimCall hk h rfl) hseq hkeys hs
    | policy c =>
      have h : c.exec env s = .ok s' := hstep.2
      have hclaims : SameKind .claim s s' := (frame_policyCall h).sameKind (c.untouched rfl)
      cases c with
      | initiatePolicy a =>
        obtain ⟨policy, hran⟩ := policyRan_of_exec h
        exact attached_of_initiate hran hclaims hseq hs
      | transferPolicy holder policyId newHolder =>
        exact attached_of_transfer (policyRan_of_exec h) hok hclaims hseq hs
      | _ => exact attached_of_edited (.of_same hclaims) hseq (samePolicyKeys_of_step hstep rfl) hs
    | treasury c =>
      have h : c.exec env s = .ok s' := hstep.2
      have hclaims : SameKind .claim s s' := (frame_treasuryCall h).sameKind (c.untouched rfl)
      exact attached_of_edited (.of_same hclaims) hseq (samePolicyKeys_of_step hstep rfl) hs
    | setting c =>
      have h : c.exec env s = .ok s' := hstep.2
      have hclaims : SameKind .claim s s' := (frame_setting h).sameKind rfl
      exact attached_of_edited (.of_same hclaims) hseq (samePolicyKeys_of_step hstep rfl) hs
    | governance c =>
      have h : c.exec env s = .ok s' := hstep.2
      have hclaims : SameKind .claim s s' := (frame_governanceCall h).sameKind (c.untouched rfl)
      exact attached_of_edited (.of_same hclaims) hseq (samePolicyKeys_of_step hstep rfl) hs

end Attached

/-- **Claims stay attached to their policies** in every run in which the transfers spare them. -/
theorem attached_of_reach {host : Host} {p : State × Provenance}
    (h : (traced host).Reach (fun p l => SparesClaims p.1 l) p) : Attached p := by
  refine h.invariant_with (J := fun p => p.1.ClaimsKeyed) (I := Attached) ?_ ?_ ?_
  · intro q hq
    exact claimsKeyed_of_reach (Reach.forget hq).to_always
  · rintro ⟨s, g⟩ ⟨hs, -⟩ id claim hclaim
    simp [State.getClaim, State.Fresh.get host hs] at hclaim
  · rintro ⟨s, g⟩ l ⟨s', g'⟩ hk hok ⟨hstep, rfl⟩ hs
    exact attached_of_step hstep hok hk hs

/-! ## The payout entrypoints -/

/-- The payouts of the step are made in `asset` and to `recipient`. -/
def PaysTo (s s' : State) (asset recipient : Address) : Prop :=
  ∃ ps, s'.payouts = s.payouts ++ ps ∧ ∀ p ∈ ps, p.asset = asset ∧ p.recipient = recipient

/-- The payouts of the step are made in the asset and to the recipient that `policy` gives. -/
def PaysOn (s s' : State) (policy : Policy) : Prop :=
  PaysTo s s' (s.effectiveAsset policy) policy.payoutTo

namespace PaysTo

variable {s s' s'' : State} {asset recipient : Address}

theorem of_same (h : s'.payouts = s.payouts) : PaysTo s s' asset recipient :=
  ⟨[], by simp [h], by simp⟩

theorem of_log {p : Payout} (h : s'.payouts = s.payouts ++ [p]) (hasset : p.asset = asset)
    (hto : p.recipient = recipient) : PaysTo s s' asset recipient :=
  ⟨[p], h, by simp [hasset, hto]⟩

theorem trans (h : PaysTo s s' asset recipient) (h' : PaysTo s' s'' asset recipient) :
    PaysTo s s'' asset recipient := by
  obtain ⟨ps, hps, hall⟩ := h
  obtain ⟨qs, hqs, hall'⟩ := h'
  refine ⟨ps ++ qs, ?_, ?_⟩
  · rw [hqs, hps, List.append_assoc]
  · intro p hp
    rcases List.mem_append.mp hp with hp | hp
    · exact hall p hp
    · exact hall' p hp

end PaysTo

section Payouts

variable {env : Env} {s s' : State} {claimId : Nat} {policy : Policy}

/-- The errors that a payout can end with once its asset and its recipient are accepted. -/
def payoutFaults : List Error := [.claimAmountZero, .overflow, .noReinsuranceConfigured]

theorem recordPayoutOut_error {asset : Address} {amount release : Int} {e : Error}
    (h : s.recordPayoutOut asset amount release = .error (.error e)) : e ∈ payoutFaults := by
  have hcases : Fault.error .claimAmountZero = .error e ∨ Fault.error .overflow = .error e := by
    by_cases hrel : release > 0
    · simp only [State.recordPayoutOut, if_pos hrel, bind_eq_error, ensure_eq_error,
        okOr_eq_error, pure_ne_error, and_false, or_false, exists_false] at h
      obtain ⟨-, h⟩ | ⟨-, -, ⟨-, h⟩ | ⟨_, -, ⟨-, h⟩ | ⟨_, -, -, h⟩⟩⟩ := h
      · exact .inl h
      · exact .inr h
      · exact .inr h
      · exact .inr h
    · simp only [State.recordPayoutOut, if_neg hrel, bind_eq_error, ensure_eq_error,
        okOr_eq_error, pure_ne_error, and_false, or_false, exists_false] at h
      obtain ⟨-, h⟩ | ⟨-, -, ⟨-, h⟩ | ⟨_, -, ⟨-, h⟩ | ⟨_, -, h⟩⟩⟩ := h
      · exact .inl h
      · exact .inr h
      · exact .inr h
      · cases h
  rcases hcases with h | h <;> cases h <;> decide

theorem payFromTreasury_ne_error {asset recipient : Address} {amount : Int} {e : Error} :
    s.payFromTreasury env claimId asset recipient amount ≠ .error (.error e) := by
  intro h
  simp only [State.payFromTreasury, State.tokenTransfer, bind_eq_error, ensure_eq_error,
    pure_ne_error, reduceCtorEq, and_false, or_false, exists_false] at h

theorem payFromReinsurance_ne_error {asset reinsurance recipient : Address} {amount : Int}
    {e : Error} :
    s.payFromReinsurance env claimId asset reinsurance recipient amount ≠ .error (.error e) := by
  intro h
  simp only [State.payFromReinsurance, State.tokenTransferFrom, bind_eq_error, ensure_eq_error,
    pure_ne_error, reduceCtorEq, and_false, or_false, exists_false] at h

theorem settlePayout_error {claim : Claim} {asset recipient : Address} {net : Int} {e : Error}
    (h : settlePayout env s claim asset recipient net = .error (.error e)) : e ∈ payoutFaults := by
  dsimp only [settlePayout] at h
  split at h
  · simp only [bind_eq_error, payFromTreasury_ne_error, pure_ne_error, and_false,
      or_false, exists_false] at h
  · simp only [bind_eq_error, okOr_eq_error] at h
    obtain ⟨-, h⟩ | ⟨reinsurance, -, ⟨-, h⟩ | ⟨x, -, h⟩⟩ := h
    · cases h
      decide
    · cases h
      decide
    · split at h
      · exact absurd h pure_ne_error
      · split at h <;> simp only [bind_eq_error, payFromTreasury_ne_error,
          payFromReinsurance_ne_error, pure_ne_error, and_false, or_false, exists_false] at h

/-- The asset of the payouts on `policy` is its own, or an override on the allowlist. -/
def State.AssetAccepted (s : State) (policy : Policy) : Prop :=
  s.effectiveAsset policy = policy.asset ∨ s.isAllowedAsset (s.effectiveAsset policy) = true

/-- The recipient of the payouts on `policy` is no contract, or one on the allowlist. -/
def State.PayeeAccepted (s : State) (env : Env) (policy : Policy) : Prop :=
  env.executable policy.payoutTo = false ∨ s.isAllowedPayoutRecipient policy.payoutTo = true

/-- **How `payout` fails on a stored policy**: it refuses the asset or the recipient, or it ends
with one of the `payoutFaults`. -/
theorem payout_error {claim : Claim} {e : Error}
    (hpolicy : s.getPolicy claim.claimant claim.policyId = some policy)
    (h : payout env s claim = .error (.error e)) :
    (e = .invalidAsset ∧ ¬ s.AssetAccepted policy) ∨
      (e = .payoutRecipientContractNotAllowlisted ∧ ¬ s.PayeeAccepted env policy) ∨
      e ∈ payoutFaults := by
  simp only [payout, bind_eq_error, okOr_eq_error, ensure_eq_error, hpolicy] at h
  obtain ⟨h, -⟩ | ⟨p, hp, ⟨hasset, h⟩ | ⟨-, -, ⟨-, h⟩ | ⟨net, -, ⟨-, h⟩ | ⟨-, -, ⟨hpayee, h⟩ |
    ⟨-, -, h | ⟨s₁, -, h⟩⟩⟩⟩⟩⟩ := h
  · cases h
  · rw [okOr_eq_ok] at hp
    cases hp
    cases h
    exact .inl ⟨rfl, hasset⟩
  · cases h
    exact .inr (.inr (by decide))
  · cases h
    exact .inr (.inr (by decide))
  · rw [okOr_eq_ok] at hp
    cases hp
    cases h
    exact .inr (.inl ⟨rfl, hpayee⟩)
  · exact .inr (.inr (recordPayoutOut_error h))
  · exact .inr (.inr (settlePayout_error h))

theorem paysTo_of_payFromTreasury {asset recipient : Address} {amount : Int}
    (h : s.payFromTreasury env claimId asset recipient amount = .ok s') :
    PaysTo s s' asset recipient := by
  obtain ⟨-, -, rfl⟩ := payFromTreasury_eq_ok h
  exact .of_log rfl rfl rfl

theorem paysTo_of_payFromReinsurance {asset reinsurance recipient : Address} {amount : Int}
    (h : s.payFromReinsurance env claimId asset reinsurance recipient amount = .ok s') :
    PaysTo s s' asset recipient :=
  .of_log (payFromReinsurance_eq_ok h).2.2 rfl rfl

theorem paysTo_of_settlePayout {claim claim' : Claim} {asset recipient : Address} {net : Int}
    (h : settlePayout env s claim asset recipient net = .ok (claim', s')) :
    PaysTo s s' asset recipient := by
  cases settlementRun_of_ok h with
  | treasury _ hpaid => exact (paysTo_of_payFromTreasury hpaid).trans (.of_same rfl)
  | short => exact .of_same rfl
  | both _ _ _ _ _ hpaid hdrawn =>
    refine (PaysTo.of_same rfl).trans ((paysTo_of_payFromTreasury hpaid).trans ?_)
    exact (paysTo_of_payFromReinsurance hdrawn).trans (.of_same rfl)
  | reinsurance _ _ _ _ _ hdrawn =>
    refine (PaysTo.of_same rfl).trans ((paysTo_of_payFromReinsurance hdrawn).trans ?_)
    exact .of_same rfl

theorem paysOn_of_payout (claim : Claim) {claim' : Claim}
    (hpolicy : s.getPolicy claim.claimant claim.policyId = some policy)
    (h : payout env s claim = .ok (claim', s')) : PaysOn s s' policy := by
  simp only [payout, bind_eq_ok, okOr_eq_ok] at h
  obtain ⟨p, hp, -, -, net, -, -, -, -, -, s₃, h₃, h₄⟩ := h
  rw [hpolicy] at hp
  cases hp
  have hpre : Frame [.assetLedger] s s₃ := by
    refine Frame.trans ?_ (frame_recordPayoutOut h₃)
    split <;> split <;> simp
  exact (PaysTo.of_same (hpre.payouts rfl)).trans (paysTo_of_settlePayout h₄)

/-- The states in which `process_claim` calls `payout` have the policies, the settings and the
payouts of the state before. -/
theorem paysOn_congr {t t' : State} {ks : List Kind} (hf : Frame ks s t)
    (hconfig : ks.contains .config = false) (h : PaysOn t t' policy) :
    PaysTo t t' (s.effectiveAsset policy) policy.payoutTo := by
  have hget : t.get (.policyTypeConfig policy.policyType) =
      s.get (.policyTypeConfig policy.policyType) := hf.get _ hconfig
  unfold PaysOn State.effectiveAsset at h
  rw [hget] at h
  exact h

theorem assetAccepted_congr {t : State} {ks : List Kind} (hf : Frame ks s t)
    (hconfig : ks.contains .config = false) : t.AssetAccepted policy ↔ s.AssetAccepted policy := by
  have hget : t.get (.policyTypeConfig policy.policyType) =
      s.get (.policyTypeConfig policy.policyType) := hf.get _ hconfig
  have hall : ∀ asset, t.isAllowedAsset asset = s.isAllowedAsset asset := by
    intro asset
    simp only [State.isAllowedAsset, hf.get (.allowedAsset asset) hconfig]
  simp only [State.AssetAccepted, State.effectiveAsset, hget, hall]

theorem payeeAccepted_congr {t : State} {ks : List Kind} (hf : Frame ks s t)
    (hconfig : ks.contains .config = false) :
    t.PayeeAccepted env policy ↔ s.PayeeAccepted env policy := by
  simp only [State.PayeeAccepted, State.isAllowedPayoutRecipient,
    hf.get (.allowedPayoutRecipient policy.payoutTo) hconfig]

theorem accepted_of_payout (claim : Claim) {claim' : Claim}
    (hpolicy : s.getPolicy claim.claimant claim.policyId = some policy)
    (h : payout env s claim = .ok (claim', s')) :
    s.AssetAccepted policy ∧ s.PayeeAccepted env policy := by
  simp only [payout, bind_eq_ok, okOr_eq_ok, ensure_eq_ok, hpolicy] at h
  obtain ⟨p, hp, -, hasset, net, -, -, -, -, hpayee, -⟩ := h
  cases hp
  exact ⟨hasset, hpayee⟩

/-- What `process_claim` can write before its second payout. -/
def processKinds : List Kind :=
  [.openClaim, .ratePrev, .claim, .rolling, .assetLedger, .cash, .payout]

theorem second_payout {claim claim₂ : Claim} {s₄ : State}
    (h : payout env (s.markPaid claimId claim) (claim.moveTo .paid s.sequence) = .ok (claim₂, s₄)) :
    claim₂.claimant = claim.claimant ∧ claim₂.policyId = claim.policyId ∧
      Frame processKinds s
        (s₄.recordClaimPaid claim.claimant claim.policyId claim.amount s.sequence) := by
  refine ⟨?_, ?_, ?_⟩
  · obtain ⟨-, -, ⟨-, rfl⟩ | ⟨-, rfl⟩, -⟩ := payout_eq_ok h
    · rfl
    · rfl
  · obtain ⟨-, -, ⟨-, rfl⟩ | ⟨-, rfl⟩, -⟩ := payout_eq_ok h
    · rfl
    · rfl
  · have hf₃ := frame_markPaid (s := s) claimId claim
    refine ((hf₃.mono (by simp [processKinds])).trans
      ((frame_payout h).mono (by simp [processKinds]))).trans ?_
    exact (frame_recordClaimPaid _ _ _ _ _).mono (by simp [processKinds])

/-- The errors of the payout entrypoints on a stored claim and policy, apart from the refusals of
an asset or a recipient. -/
def payableFaults : List Error :=
  [.alreadyPaid, .claimNotApproved, .disputeWindowActive, .overDisbursement] ++ payoutFaults

theorem mem_payableFaults {e : Error} (h : e ∈ payoutFaults) : e ∈ payableFaults :=
  List.mem_append_right _ h

/-- **How `process_claim` fails on a stored policy.** -/
theorem processClaim_error {claim : Claim} {e : Error} (hclaim : s.getClaim claimId = some claim)
    (hpolicy : s.getPolicy claim.claimant claim.policyId = some policy)
    (h : processClaim env s claimId = .error (.error e)) :
    (e = .invalidAsset ∧ ¬ s.AssetAccepted policy) ∨
      (e = .payoutRecipientContractNotAllowlisted ∧ ¬ s.PayeeAccepted env policy) ∨
      e ∈ payableFaults := by
  -- a payout in a state that has the policies and the settings of `s`
  have hpay : ∀ {t : State} {claim' : Claim}, payout env t claim' = .error (.error e) →
      Frame processKinds s t → claim'.claimant = claim.claimant →
      claim'.policyId = claim.policyId →
      (e = .invalidAsset ∧ ¬ s.AssetAccepted policy) ∨
        (e = .payoutRecipientContractNotAllowlisted ∧ ¬ s.PayeeAccepted env policy) ∨
        e ∈ payableFaults := by
    intro t claim' herr hf hholder hid
    have hkept : t.getPolicy claim'.claimant claim'.policyId = some policy := by
      rw [hholder, hid, ← hpolicy]
      exact hf.get (.policy claim.claimant claim.policyId) rfl
    have hcases := payout_error hkept herr
    rw [assetAccepted_congr hf rfl, payeeAccepted_congr hf rfl] at hcases
    exact hcases.imp_right (Or.imp_right mem_payableFaults)
  simp only [processClaim, bind_eq_error, okOr_eq_error, ensure_eq_error, hclaim,
    Prod.exists] at h
  obtain ⟨h, -⟩ | ⟨c, hc, h⟩ := h
  · cases h
  rw [okOr_eq_ok] at hc
  cases hc
  obtain ⟨-, h⟩ | ⟨-, -, ⟨-, h⟩ | ⟨-, -, ⟨-, h⟩ | ⟨-, -, h | ⟨claim₂, s₄, h₄, h⟩⟩⟩⟩ := h
  · cases h
    exact .inr (.inr (by decide))
  · cases h
    exact .inr (.inr (by decide))
  · cases h
    exact .inr (.inr (by decide))
  · change payout env (s.markPaid claimId claim) (claim.moveTo .paid s.sequence) = _ at h
    exact hpay h ((frame_markPaid claimId claim).mono (by simp [processKinds])) rfl rfl
  · change payout env (s.markPaid claimId claim) (claim.moveTo .paid s.sequence) = _ at h₄
    split at h
    · exact absurd h pure_ne_error
    · obtain ⟨hholder, hid, hf⟩ := second_payout h₄
      simp only [bind_eq_error, pure_ne_error, and_false, exists_false, or_false] at h
      exact hpay h hf hholder hid

/-- **`process_claim` pays on the policy that is stored at the claim's key**, once its asset and
its recipient are accepted. -/
theorem processClaim_pays {claim : Claim} (hclaim : s.getClaim claimId = some claim)
    (hpolicy : s.getPolicy claim.claimant claim.policyId = some policy)
    (h : processClaim env s claimId = .ok s') :
    s.AssetAccepted policy ∧ s.PayeeAccepted env policy ∧ PaysOn s s' policy := by
  simp only [processClaim, bind_eq_ok, okOr_eq_ok, hclaim, Prod.exists] at h
  obtain ⟨c, hc, -, -, -, -, -, -, claim₂, s₄, h₄, h⟩ := h
  cases hc
  change payout env (s.markPaid claimId claim) (claim.moveTo .paid s.sequence) = _ at h₄
  have hf₃ := frame_markPaid (s := s) claimId claim
  have hpolicy₃ : (s.markPaid claimId claim).getPolicy claim.claimant claim.policyId =
      some policy := by
    rw [← hpolicy]
    exact hf₃.get (.policy claim.claimant claim.policyId) rfl
  obtain ⟨hasset, hpayee⟩ := accepted_of_payout (claim.moveTo .paid s.sequence) hpolicy₃ h₄
  refine ⟨(assetAccepted_congr hf₃ rfl).mp hasset, (payeeAccepted_congr hf₃ rfl).mp hpayee, ?_⟩
  have hpays : PaysTo s s₄ (s.effectiveAsset policy) policy.payoutTo :=
    (PaysTo.of_same (hf₃.payouts rfl)).trans
      (paysOn_congr hf₃ rfl (paysOn_of_payout (claim.moveTo .paid s.sequence) hpolicy₃ h₄))
  split at h
  · cases h
    exact hpays
  · simp only [bind_eq_ok, Prod.exists, pure_eq_ok] at h
    obtain ⟨claim₃, s₆, h₆, rfl⟩ := h
    obtain ⟨hholder, hid, hf⟩ := second_payout h₄
    have hpolicy₅ : (s₄.recordClaimPaid claim.claimant claim.policyId claim.amount
        s.sequence).getPolicy claim₂.claimant claim₂.policyId = some policy := by
      rw [hholder, hid, ← hpolicy]
      exact hf.get (.policy claim.claimant claim.policyId) rfl
    have hlog := (frame_recordClaimPaid s₄ claim.claimant claim.policyId claim.amount
      s.sequence).payouts rfl
    refine hpays.trans ((PaysTo.of_same hlog).trans ?_)
    exact (paysOn_congr hf rfl (paysOn_of_payout claim₂ hpolicy₅ h₆)).trans (.of_same rfl)

/-- **How `disburse_installment` fails on a stored policy**: the recipient is never refused. -/
theorem disburseInstallment_error {claim : Claim} {amount : Int} {e : Error}
    (hclaim : s.getClaim claimId = some claim)
    (hpolicy : s.getPolicy claim.claimant claim.policyId = some policy)
    (h : disburseInstallment env s claimId amount = .error (.error e)) :
    (e = .invalidAsset ∧ ¬ s.AssetAccepted policy) ∨ e ∈ payableFaults := by
  simp only [disburseInstallment, bind_eq_error, okOr_eq_error, ensure_eq_error, hclaim,
    payFromTreasury_ne_error, pure_ne_error, and_false, or_false, false_or, exists_false,
    okOr_eq_ok, Option.some.injEq, exists_eq_left', hpolicy, false_and, Fault.error.injEq,
    reduceCtorEq] at h
  obtain ⟨-, h⟩ | ⟨-, -, ⟨-, h⟩ | ⟨-, -, ⟨-, h⟩ | ⟨-, -, ⟨-, h⟩ | ⟨-, -, ⟨-, h⟩ |
    ⟨net, -, ⟨-, h⟩ | ⟨-, -, ⟨-, h⟩ | ⟨remaining, -, ⟨-, h⟩ | ⟨-, -, ⟨hasset, h⟩ |
    ⟨-, -, h | ⟨s₁, -, s₂, -, h⟩⟩⟩⟩⟩⟩⟩⟩⟩⟩ := h
  · exact .inr (h ▸ by decide)
  · exact .inr (h ▸ by decide)
  · exact .inr (h ▸ by decide)
  · exact .inr (h ▸ by decide)
  · exact .inr (h ▸ by decide)
  · exact .inr (h ▸ by decide)
  · exact .inr (h ▸ by decide)
  · exact .inr (h ▸ by decide)
  · exact .inl ⟨h.symm, hasset⟩
  · exact .inr (mem_payableFaults (recordPayoutOut_error h))
  · obtain ⟨-, h⟩ | ⟨paid, -, h⟩ := h
    · exact .inr (h ▸ by decide)
    · simp only [add32, okOr_eq_error, reduceCtorEq, and_false] at h

/-- **`disburse_installment` pays on the policy that is stored at the claim's key**, once its
asset is accepted. -/
theorem disburseInstallment_pays {claim : Claim} {amount : Int}
    (hclaim : s.getClaim claimId = some claim)
    (hpolicy : s.getPolicy claim.claimant claim.policyId = some policy)
    (h : disburseInstallment env s claimId amount = .ok s') :
    s.AssetAccepted policy ∧ PaysOn s s' policy := by
  simp only [disburseInstallment, bind_eq_ok, okOr_eq_ok, ensure_eq_ok, hclaim, pure_eq_ok] at h
  obtain ⟨-, -, c, hc, -, -, -, -, -, -, net, -, -, -, remaining, -, -, -, p, hp, -,
    hasset, s₁, h₁, s₂, h₂, paid, -, count, -, rfl⟩ := h
  cases hc
  rw [hpolicy] at hp
  cases hp
  refine ⟨hasset, ?_⟩
  have hlog₁ : s₁.payouts = s.payouts := (frame_recordPayoutOut h₁).payouts rfl
  refine (PaysTo.of_same hlog₁).trans ((paysTo_of_payFromTreasury h₂).trans (.of_same ?_))
  split
  · rfl
  · rfl

theorem policyNotFound_of_requireStoredAdmin :
    requireStoredAdmin env s ≠ .error (.error .policyNotFound) := by
  intro h
  simp only [requireStoredAdmin, requireAuth, bind_eq_error, okOr_eq_error, ensure_eq_error,
    pure_ne_error, reduceCtorEq, and_false, or_false, exists_false] at h

/-- The payout call `c` does not miss the policy, and pays on it. -/
def ClaimCall.PaidOn (c : ClaimCall) (env : Env) (s : State) (policy : Policy) : Prop :=
  c.exec env s ≠ .error (.error .policyNotFound) ∧
    ∀ s', c.exec env s = .ok s' → PaysOn s s' policy

theorem paidOn_processClaim {claim : Claim} (hclaim : s.getClaim claimId = some claim)
    (hpolicy : s.getPolicy claim.claimant claim.policyId = some policy) :
    (ClaimCall.processClaim claimId).PaidOn env s policy := by
  constructor
  · intro h
    rcases bind_eq_error.mp h with h | ⟨a, -, h⟩
    · exact policyNotFound_of_requireStoredAdmin h
    · obtain ⟨h, -⟩ | ⟨h, -⟩ | h := processClaim_error hclaim hpolicy h
      · cases h
      · cases h
      · exact absurd h (by decide)
  · intro s' h
    exact (processClaim_pays hclaim hpolicy (ran_of_exec h)).2.2

theorem paidOn_disburseInstallment {claim : Claim} {amount : Int}
    (hclaim : s.getClaim claimId = some claim)
    (hpolicy : s.getPolicy claim.claimant claim.policyId = some policy) :
    (ClaimCall.disburseInstallment claimId amount).PaidOn env s policy := by
  constructor
  · intro h
    rcases bind_eq_error.mp h with h | ⟨a, -, h⟩
    · exact policyNotFound_of_requireStoredAdmin h
    · obtain ⟨h, -⟩ | h := disburseInstallment_error hclaim hpolicy h
      · cases h
      · exact absurd h (by decide)
  · intro s' h
    exact (disburseInstallment_pays hclaim hpolicy (ran_of_exec h)).2

end Payouts

/-- The claim is undecided or approved. -/
def Claim.Payable (claim : Claim) : Prop :=
  claim.status = .processing ∨ claim.status = .underAppeal ∨ claim.status = .approved ∨
    claim.status = .appealApproved

theorem Claim.Payable.mayPay {claim : Claim} (h : claim.Payable) (now : Nat) :
    claim.MayPay now := by
  rcases h with h | h | h | h
  · exact .inl (by rw [h]; rfl)
  · exact .inl (by rw [h]; rfl)
  · exact .inr (.inl h)
  · exact .inr (.inr (.inl h))

/-- **Payable claims are never orphaned**, in every run in which no transfer touches the policy of
a claim that may still be paid.  An undecided or approved claim finds at its key the policy that
it was filed against, which is stored nowhere else, and the payout entrypoints never miss it and
pay on it. -/
theorem claims_keep_policy_of_reach {host : Host} {s : State} {g : Provenance}
    (h : (traced host).Reach (fun p l => SparesClaims p.1 l) (s, g)) {id : Nat} {claim : Claim}
    (hclaim : s.getClaim id = some claim) (hpay : claim.Payable) :
    ∃ policy, s.getPolicy claim.claimant claim.policyId = some policy ∧
      g.serial (claim.claimant, claim.policyId) = g.filedOn id ∧
      (∀ a policyId q, s.getPolicy a policyId = some q → g.serial (a, policyId) = g.filedOn id →
        (a, policyId) = (claim.claimant, claim.policyId)) ∧
      (∀ env, (ClaimCall.processClaim id).PaidOn env s policy) ∧
      ∀ env amount, (ClaimCall.disburseInstallment id amount).PaidOn env s policy := by
  obtain ⟨hstored, hserial⟩ := attached_of_reach h id claim hclaim (hpay.mayPay _)
  obtain ⟨policy, hpolicy⟩ := Option.ne_none_iff_exists'.mp hstored
  refine ⟨policy, hpolicy, hserial, ?_, ?_, ?_⟩
  · intro a policyId q hq hq'
    exact (serials_distinct_of_reach h.to_always).distinct _ _ _ _ _ _ hq hpolicy
      (hq'.trans hserial.symm)
  · exact fun env => paidOn_processClaim hclaim hpolicy
  · exact fun env amount => paidOn_disburseInstallment hclaim hpolicy

/-- The check of a run in which the transfers spare the claims. -/
def checkSparesClaims (s : State) : Label → Bool
  | .call _ (.policy (.transferPolicy holder policyId newHolder)) =>
    s.claims.all fun claim => decide (claim.MayPay s.sequence → claim.policyId = policyId →
      claim.claimant ≠ holder ∧ claim.claimant ≠ newHolder)
  | _ => true

theorem sparesClaims_of_check (s : State) (l : Label) (h : checkSparesClaims s l = true) :
    SparesClaims s l := by
  unfold checkSparesClaims at h
  unfold SparesClaims
  split at h
  · intro claim hmem
    exact of_decide_eq_true (List.all_eq_true.mp h claim hmem)
  · trivial

/-- Account 1 files a claim, account 2 approves it, and the policy `policyId` of `holder` goes to
account 7. -/
def transferTrace (holder : Address) : List Label :=
  demoSetup ++ [demoFile 1 1 1000, demoCall (.claim (.voteOnClaim 2 1 .approve)),
    demoCall (.policy (.transferPolicy holder 1 7))]

/-- The policy of account 3 is transferred while the claim of account 1 waits for its payout. -/
theorem claims_keep_policy_demo :
    ∃ s g claim, (traced demoHost).Reach (fun p l => SparesClaims p.1 l) (s, g) ∧
      s.getClaim 1 = some claim ∧ claim.status = .approved ∧ s.getPolicy 3 1 = none ∧
      ∃ policy, s.getPolicy claim.claimant claim.policyId = some policy ∧
        ∀ env, (ClaimCall.processClaim 1).PaidOn env s policy := by
  obtain ⟨⟨s, g⟩, hreach, hval⟩ := exists_of_followWith Provenance.note .empty
    sparesClaims_of_check (deployed 5000) (transferTrace 3)
    (f := fun p => ((p.1.getClaim 1).map fun c : Claim => c.status, p.1.getPolicy 3 1))
    (a := (some .approved, none)) (fresh_deployed (by decide))
    (by simp [transferTrace, demoSetup, demoInit, demoBind, demoFile]) (by decide +kernel)
  simp only [Prod.mk.injEq, Option.map_eq_some_iff] at hval
  obtain ⟨⟨claim, hclaim, hst⟩, hnone⟩ := hval
  obtain ⟨policy, hpolicy, -, -, hpaid, -⟩ :=
    claims_keep_policy_of_reach hreach hclaim (.inr (.inr (.inl hst)))
  exact ⟨s, g, claim, hreach, hclaim, hst, hnone, policy, hpolicy, hpaid⟩

/-- **An approved claim loses its policy.**  The approval has cleared the open-claim flag, the
policy of account 1 is transferred, and `process_claim` fails with `PolicyNotFound`. -/
theorem approved_claim_orphaned :
    ∃ s claim, (contract demoHost).Reach always s ∧ s.getClaim 1 = some claim ∧
      claim.status = .approved ∧ s.getPolicy claim.claimant claim.policyId = none ∧
      (Call.claim (.processClaim 1)).exec demoEnv s = .error (.error .policyNotFound) := by
  obtain ⟨s, hreach, hval⟩ := exists_of_follow always_of_noCheck (deployed 5000)
    (transferTrace 1)
    (f := fun s => ((s.getClaim 1).map fun c : Claim => (c.status, c.claimant, c.policyId),
      s.getPolicy 1 1, ((Call.claim (.processClaim 1)).exec demoEnv s).fault))
    (a := (some (.approved, 1, 1), none, some (.error .policyNotFound)))
      (fresh_deployed (by decide))
    (by simp [transferTrace, demoSetup, demoInit, demoBind, demoFile]) (by decide +kernel)
  simp only [Prod.mk.injEq, Option.map_eq_some_iff] at hval
  obtain ⟨⟨claim, hclaim, hst, hholder, hid⟩, hnone, hfault⟩ := hval
  refine ⟨s, claim, hreach, hclaim, hst, ?_, eq_error_of_fault hfault⟩
  rw [hholder, hid, hnone]

end NiffyInsure
