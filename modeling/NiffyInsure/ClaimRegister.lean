import NiffyInsure.ClaimEdit
import NiffyInsure.Lib.WriteOnce
import NiffyInsure.Lifecycle

/-!
# The register of claims

A claim is written by the `file_claim` call that files it, and its terms are never written again.
So over a whole run the claims are numbered without gaps in the order of their filing, and behind
every claim there is one call: its claimant signed it while the policy was active and covered the
amount.

* `Claim.terms`: what is fixed at the filing.
* `writeOnce_terms`: the terms of a claim are written once, by the call that files it.
* `claims_filed_once`: the filing behind every stored claim, and the numbering.
-/

namespace NiffyInsure

open Machine

/-- What is fixed when a claim is filed. -/
structure ClaimTerms where
  claimant : Address
  policyId : Nat
  amount : Int
  deductible : Int
  asset : Address
  details : Str
  filedAt : Nat

def Claim.terms (c : Claim) : ClaimTerms :=
  ⟨c.claimant, c.policyId, c.amount, c.deductible, c.asset, c.details, c.filedAt⟩

/-- **No edit touches the terms.** -/
theorem Claim.Edit.terms {now : Nat} {c c' : Claim} (h : c.Edit now c') : c'.terms = c.terms := by
  cases h with
  | tally vote => cases vote <;> rfl
  | tallyAppeal vote => cases vote <;> rfl
  | process failed => cases failed <;> rfl
  | _ => rfl

theorem ClaimsEdited.terms {s s' : State} (h : ClaimsEdited s s') (id : Nat) :
    (s'.getClaim id).map Claim.terms = (s.getClaim id).map Claim.terms := by
  cases hc : s.getClaim id with
  | none => rw [h.unfiled id hc]
  | some c =>
    obtain ⟨c', hc', hedits⟩ := h.moved id c hc
    have hterms : c'.terms = c.terms := hedits.lift (R := fun a b => b.terms = a.terms)
      (fun _ => rfl) (fun _ _ _ hab hbc => hbc.trans hab) fun _ _ => Claim.Edit.terms
    rw [hc', Option.map_some, Option.map_some, hterms]

/-! ## Filing -/

/-- The terms under which the move files the claim `id`, if it does. -/
def filingOf (id : Nat) (m : Move State Label) : Option ClaimTerms :=
  match m.label with
  | .call _ (.claim (.fileClaim ..)) =>
    if id = m.before.getClaimCounter + 1 then (m.after.getClaim id).map Claim.terms else none
  | _ => none

/-- The filing of a claim with these terms: the claimant signed it, and the policy was active and
covered the amount. -/
structure FilesWith (m : Move State Label) (t : ClaimTerms) : Prop where
  call : ∃ env evidence expectedNonce, env.auths t.claimant = true ∧
    m.label = .call env
      (.claim (.fileClaim t.claimant t.policyId t.amount t.details evidence expectedNonce))
  policy : ∃ policy, m.before.getPolicy t.claimant t.policyId = some policy ∧
    policy.isActive = true ∧ policy.startLedger ≤ m.before.sequence ∧
    m.before.sequence < policy.endLedger ∧ t.amount ≤ policy.coverage ∧
    t.deductible = policy.deductible.getD 0 ∧ t.asset = policy.asset
  positive : 0 < t.amount
  filedAt : t.filedAt = m.before.sequence

section Steps

variable {env : Env} {s s' : State} {claimId : Nat}

theorem covered_of_fileClaim {holder : Address} {policyId : Nat} {amount : Int} {details : Str}
    {evidence : List ClaimEvidenceEntry} {expectedNonce : Option Nat} {policy : Policy}
    (h : fileClaim env s holder policyId amount details evidence expectedNonce = .ok (claimId, s'))
    (hp : s.getPolicy holder policyId = some policy) :
    policy.startLedger ≤ s.sequence ∧ s.sequence < policy.endLedger ∧ 0 < amount ∧
      amount ≤ policy.coverage := by
  simp only [fileClaim, bind_eq_ok, okOr_eq_ok] at h
  obtain ⟨-, -, s₁, h₁, p, hp₁, u, hcheck, -⟩ := h
  have hf₁ := frame_checkAndBumpNonce h₁
  rw [State.getPolicy, hf₁.get (.policy holder policyId) rfl] at hp₁
  rw [State.getPolicy, hp₁] at hp
  cases hp
  simp only [State.checkFiling, State.checkClaimFields, bind_eq_ok, ensure_eq_ok,
    hf₁.sequence] at hcheck
  obtain ⟨-, hwindow, -, -, -, -, -, -, -, -, -, hpos, -, hle, -⟩ := hcheck
  simp only [isWithinWindow, Bool.and_eq_true, decide_eq_true_eq] at hwindow
  exact ⟨hwindow.1, hwindow.2, hpos, hle⟩

/-- **What a step does to the register**: it edits the claims in it, or files one under the next
id. -/
inductive RegisterStep (s s' : State) (l : Label) : Prop where
  | edited (claims : ClaimsEdited s s') (counter : s'.getClaimCounter = s.getClaimCounter)
    (none : ∀ id, filingOf id ⟨s, l, s'⟩ = none)
  | filed (c : Claim) (stored : s'.getClaim (s.getClaimCounter + 1) = some c)
    (counter : s'.getClaimCounter = s.getClaimCounter + 1)
    (other : ∀ id, id ≠ s.getClaimCounter + 1 → s'.getClaim id = s.getClaim id)
    (filing : ∀ id, filingOf id ⟨s, l, s'⟩ = if id = s.getClaimCounter + 1 then some c.terms
      else none)
    (terms : FilesWith ⟨s, l, s'⟩ c.terms)

theorem registerStep_of_fileClaim {holder : Address} {policyId : Nat} {amount : Int} {details : Str}
    {evidence : List ClaimEvidenceEntry} {expectedNonce : Option Nat}
    (hauth : env.auths holder = true)
    (h : fileClaim env s holder policyId amount details evidence expectedNonce =
      .ok (claimId, s')) :
    RegisterStep s s'
      (.call env (.claim (.fileClaim holder policyId amount details evidence expectedNonce))) := by
  obtain ⟨policy, voters, deadline, hpolicy, hactive, -, rfl, -, -, hrec, -, -, hcounter⟩ :=
    fileClaim_eq_ok h
  obtain ⟨hstart, hend, hpos, hle⟩ := covered_of_fileClaim h hpolicy
  have hstored := getClaim_of_write_self hrec rfl
  refine .filed _ hstored ?_ (fun id hid => ?_) (fun id => ?_) ?_
  · have hget : s'.get .claimCounter = some (s.getClaimCounter + 1) :=
      (hcounter .claimCounter rfl).trans (State.get_set_self _ _)
    rw [State.getClaimCounter, hget, Option.getD_some]
  · rw [getClaim_of_write hrec]
    exact if_neg hid
  · show (if id = s.getClaimCounter + 1 then (s'.getClaim id).map Claim.terms else none) = _
    split
    · rename_i hid
      rw [hid]
      exact congrArg (Option.map Claim.terms) hstored
    · rfl
  · exact ⟨⟨env, evidence, expectedNonce, hauth, rfl⟩,
      ⟨policy, hpolicy, hactive, hstart, hend, hle, rfl, rfl⟩, hpos, rfl⟩

theorem registerStep_of_step {host : Host} {l : Label} (hk : s.ClaimsKeyed)
    (hstep : (contract host).step s l s') : RegisterStep s s' l := by
  obtain ⟨env, c, rfl, hexec⟩ | ⟨hno, hsame⟩ := claimCall_or_same hstep
  · by_cases hfiles : c.files = true
    · cases c
      case fileClaim =>
        obtain ⟨id, hran⟩ := ran_of_exec hexec
        obtain ⟨u, hauth, -⟩ := bind_eq_ok.mp hexec
        exact registerStep_of_fileClaim (requireAuth_eq_ok.mp hauth) hran
      all_goals cases hfiles
    · have hno : c.files = false := Bool.eq_false_iff.mpr hfiles
      have hf := frame_claimCall hexec
      refine .edited (claimsEdited_of_claimCall hk hexec hno)
        (getClaimCounter_of_same (hf.sameKind ?_)) fun id => ?_
      all_goals
        cases c
        case fileClaim => cases hno
        all_goals rfl
  · refine .edited (.of_same (hsame .claim rfl)) (getClaimCounter_of_same (hsame .claimCounter rfl))
      fun id => ?_
    unfold filingOf
    split
    · rename_i hl
      exact absurd hl (hno _ _)
    · rfl

end Steps

/-! ## Runs -/

section Runs

variable {host : Host} {s : State} {g : Journal} {id : Nat} {c : Claim}

theorem writeOnce_terms (host : Host) (id : Nat) :
    WriteOnce (contract host) always (fun s => (s.getClaim id).map Claim.terms) (filingOf id) := by
  refine .of_cases (fun s hs => ?_) ?_
  · rw [State.getClaim, State.Fresh.get host hs]
    rfl
  · intro s l t hreach hstep
    have hk := claimsKeyed_of_reach hreach
    cases registerStep_of_step hk hstep with
    | edited claims _ none => exact .inl ⟨none id, claims.terms id⟩
    | filed c stored _ other filing =>
      rw [filing]
      by_cases hid : id = s.getClaimCounter + 1
      · subst hid
        have hnone : s.getClaim (s.getClaimCounter + 1) = none := hk.unfiled (by omega)
        exact .inr ⟨c.terms, if_pos rfl, by rw [hnone]; rfl, by rw [stored]; rfl⟩
      · exact .inl ⟨if_neg hid, by rw [other id hid]⟩

theorem numbered_of_reach (h : (contract host).Reach always s) :
    ∀ id, 1 ≤ id → id ≤ s.getClaimCounter → (s.getClaim id).isSome = true := by
  refine h.invariant_with (J := State.ClaimsKeyed)
    (I := fun s => ∀ id, 1 ≤ id → id ≤ s.getClaimCounter → (s.getClaim id).isSome = true)
    (fun _ => claimsKeyed_of_reach) ?_ ?_
  · intro s hs id hpos hle
    rw [State.getClaimCounter, State.Fresh.get host hs] at hle
    change id ≤ 0 at hle
    omega
  · intro s l t hk _ hstep hs id hpos hle
    cases registerStep_of_step hk hstep with
    | edited claims counter =>
      obtain ⟨c, hc⟩ := Option.isSome_iff_exists.mp (hs id hpos (by omega))
      obtain ⟨c', hc', -⟩ := claims.moved id c hc
      rw [hc']
      rfl
    | filed c stored counter other =>
      by_cases hid : id = s.getClaimCounter + 1
      · rw [hid, stored]
        rfl
      · rw [other id hid]
        exact hs id hpos (by omega)

/-- **Every claim was filed once.**  Over every run the stored claims are those from 1 to the
counter, and each of them was filed by exactly one call, with the terms that it still has. -/
theorem claims_filed_once
    (h : (contract host).traced.Reach (fun p l => always p.1 l) (s, g)) :
    (∀ id, (∃ c, s.getClaim id = some c) ↔ 1 ≤ id ∧ id ≤ s.getClaimCounter) ∧
      ∀ id c, s.getClaim id = some c → ∃ g₁ m g₂, g = g₁ ++ m :: g₂ ∧ FilesWith m c.terms ∧
        id = m.before.getClaimCounter + 1 ∧ ∀ m' ∈ g₁ ++ g₂, filingOf id m' = none := by
  have hfiled : ∀ id c, s.getClaim id = some c → ∃ g₁ m g₂, g = g₁ ++ m :: g₂ ∧
      FilesWith m c.terms ∧ id = m.before.getClaimCounter + 1 ∧
        ∀ m' ∈ g₁ ++ g₂, filingOf id m' = none := by
    intro id c hc
    have hterms : (s.getClaim id).map Claim.terms = some c.terms := by rw [hc]; rfl
    obtain ⟨g₁, m, g₂, rfl, hm⟩ := (writeOnce_terms host id).exists_write h hterms
    obtain ⟨hheld, honly⟩ := (writeOnce_terms host id).alone h hm
    obtain ⟨hbefore, -, hstep⟩ := h.trace_split
    cases registerStep_of_step (claimsKeyed_of_reach hbefore.untrace) hstep with
    | edited _ _ none =>
      rw [none] at hm
      cases hm
    | filed c' _ _ _ filing terms =>
      rw [filing] at hm
      split at hm
      · rename_i hid
        rw [Option.some.inj hm] at terms
        exact ⟨g₁, m, g₂, rfl, terms, hid, honly⟩
      · cases hm
  refine ⟨fun id => ⟨?_, ?_⟩, hfiled⟩
  · rintro ⟨c, hc⟩
    obtain ⟨-, m, -, -, -, hid, -⟩ := hfiled id c hc
    exact ⟨by omega, (claimsKeyed_of_reach h.untrace id c hc).2⟩
  · rintro ⟨hpos, hle⟩
    exact Option.isSome_iff_exists.mp (numbered_of_reach h.untrace id hpos hle)

/-- Account 1 files a claim, which goes into an appeal with the terms it was filed with. -/
theorem claims_filed_once_demo : ∃ s g c,
    (contract demoHost).traced.Reach (fun p l => always p.1 l) (s, g) ∧
      s.getClaim 1 = some c ∧ c.status = .underAppeal ∧
      ∃ g₁ m g₂, g = g₁ ++ m :: g₂ ∧ FilesWith m c.terms := by
  obtain ⟨s, g, hreach, hval⟩ := exists_journal always_of_noCheck (deployed 0) appealedTrace
    (f := fun p => (p.1.getClaim 1).map (·.status)) (a := some .underAppeal)
    (fresh_deployed (by decide))
    (by simp [appealedTrace, filedTrace, demoSetup, demoInit, demoBind, demoFile])
      (by decide +kernel)
  obtain ⟨c, hc, hst⟩ := Option.map_eq_some_iff.mp hval
  obtain ⟨g₁, m, g₂, hg, hwith, -⟩ := (claims_filed_once hreach).2 1 c hc
  exact ⟨s, g, c, hreach, hc, hst, g₁, m, g₂, hg, hwith⟩

end Runs

end NiffyInsure
