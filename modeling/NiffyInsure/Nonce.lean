import NiffyInsure.Frame.Calls
import NiffyInsure.Trace

/-!
# Replay nonces

`file_claim` and `initiate_policy` take an optional nonce, which has to be the holder's counter,
and bump the counter.  The comment over `check_and_bump_nonce` calls the counter persistent, but
it is the one entry that lives in temporary storage: past the ledger up to which it is paid for
the host drops it, and the counter is zero again.

`Leased` is the contract's state with the last ledger of each counter, and `leased` the contract
in which the host drops the counters that have run out; `minTtl` is the network's least time to
live of a temporary entry.

* `nonce_of_call`: what an accepted call does to the counters.
* `spent_of_reach`: while the holder's counter is kept alive, it has passed every nonce that was
  accepted.
* `nonce_accepted_once`: no nonce is then accepted twice.
-/

namespace NiffyInsure

open Machine

/-! ## Time to live -/

def TEMPORARY_BUMP : Nat := 172800
def TEMPORARY_TTL_THRESHOLD : Nat := 17280

/-- The host's `extend_ttl`: an entry that lives until `liveUntil` is extended when no more than
`threshold` ledgers are left. -/
def extendTtl (now liveUntil threshold extendTo : Nat) : Nat :=
  if liveUntil - now ≤ threshold then max liveUntil (saturatingAdd32 now extendTo) else liveUntil

/-- The state with the last ledger of each holder's counter. -/
structure Leased where
  state : State
  liveUntil : Address → Nat

/-- The counters that are paid for until a ledger before `now` are dropped. -/
def State.dropExpired (s : State) (liveUntil : Address → Nat) (now : Nat) : State :=
  { s with storage := s.storage.keys.foldl (fun m k =>
      match k with
      | .holderNonce holder => if liveUntil holder < now then m.erase k else m
      | _ => m) s.storage }

/-- The holder and the nonce of a call that uses the counter. -/
def Label.nonce : Label → Option (Address × Option Nat)
  | .call _ (.claim (.fileClaim holder _ _ _ _ expected)) => some (holder, expected)
  | .call _ (.policy (.initiatePolicy a)) => some (a.holder, a.options.expectedNonce)
  | _ => none

/-- `increment_holder_nonce` extends the entry that it writes. -/
def Leased.renew (minTtl : Nat) (p : Leased) (l : Label) : Address → Nat :=
  match l.nonce with
  | none => p.liveUntil
  | some (holder, _) =>
    let now := p.state.sequence
    let current := if (p.state.get (.holderNonce holder)).isSome then p.liveUntil holder
      else now + minTtl - 1
    Function.update p.liveUntil holder
      (extendTtl now current TEMPORARY_TTL_THRESHOLD TEMPORARY_BUMP)

/-- One step of the contract in which counters run out. -/
def Leased.Step (host : Host) (minTtl : Nat) (p : Leased) : Label → Leased → Prop
  | .closeLedger n, q => p.state.sequence ≤ n ∧ n ≤ U32_MAX ∧
    q = ⟨{ p.state with sequence := n }.dropExpired p.liveUntil n, p.liveUntil⟩
  | l, q => (contract host).step p.state l q.state ∧ q.liveUntil = p.renew minTtl l

/-- The contract deployed on `host`, with counters that run out. -/
def leased (host : Host) (minTtl : Nat) : Machine Leased Label where
  init p := p.state.Fresh host
  step := Leased.Step host minTtl

/-! ## What is dropped -/

section Drop

variable {s : State} {liveUntil : Address → Nat} {now : Nat}

theorem lookup_foldl_keep (holder : Address) (hlive : now ≤ liveUntil holder) :
    ∀ (ks : List DataKey) (m : AList DataKey.Val),
      (ks.foldl (fun m k =>
        match k with
        | .holderNonce holder => if liveUntil holder < now then m.erase k else m
        | _ => m) m).lookup (.holderNonce holder) = m.lookup (.holderNonce holder) := by
  intro ks
  induction ks with
  | nil =>
    intro m
    rfl
  | cons k rest ih =>
    intro m
    rw [List.foldl_cons, ih]
    split
    case h_1 other =>
      split
      · rename_i hlt
        refine AList.lookup_erase_ne ?_
        rintro ⟨rfl⟩
        omega
      · rfl
    case h_2 => rfl

theorem get_dropExpired_of_live {holder : Address} (hlive : now ≤ liveUntil holder) :
    (s.dropExpired liveUntil now).get (.holderNonce holder) = s.get (.holderNonce holder) :=
  lookup_foldl_keep holder hlive _ _

end Drop

/-! ## The counters -/

section Calls

variable {env : Env} {s s' : State}

theorem checkAndBumpNonce_eq_ok {holder : Address} {expected : Option Nat}
    (h : s.checkAndBumpNonce holder expected = .ok s') :
    (∀ n, expected = some n → n = s.getHolderNonce holder) ∧
      s' = s.set (.holderNonce holder) (s.getHolderNonce holder + 1) := by
  simp only [State.checkAndBumpNonce, bind_eq_ok, ensure_eq_ok, pure_eq_ok] at h
  obtain ⟨-, hall, -, -, rfl⟩ := h
  refine ⟨?_, rfl⟩
  rintro n rfl
  simpa using hall

/-- **What an accepted call does to the counters.**  A call that uses a counter presents its
value, if it presents a nonce, and bumps it; any other call leaves the counters alone. -/
theorem nonce_of_call {c : Call} (h : c.exec env s = .ok s') :
    match (Label.call env c).nonce with
    | some (holder, expected) => (∀ n, expected = some n → n = s.getHolderNonce holder) ∧
        SameKind .nonce (s.set (.holderNonce holder) (s.getHolderNonce holder + 1)) s'
    | none => SameKind .nonce s s' := by
  have hf := frame_exec h
  cases c with
  | treasury c => exact hf.sameKind (c.untouched rfl)
  | setting c => exact hf.sameKind rfl
  | governance c => exact hf.sameKind (c.untouched rfl)
  | claim c =>
    cases c with
    | fileClaim holder policyId amount details evidence expected =>
      simp only [Call.exec, ClaimCall.exec, bind_eq_ok, dropValue_eq_ok] at h
      obtain ⟨-, -, id, h⟩ := h
      obtain ⟨s₁, h₁, hrest⟩ := fileClaim_bumps h
      obtain ⟨hexp, rfl⟩ := checkAndBumpNonce_eq_ok h₁
      exact ⟨hexp, hrest.sameKind rfl⟩
    | _ => exact hf.sameKind rfl
  | policy c =>
    cases c with
    | initiatePolicy a =>
      simp only [Call.exec, PolicyCall.exec, dropValue_eq_ok] at h
      obtain ⟨p, h⟩ := h
      obtain ⟨s₁, h₁, hrest⟩ := initiatePolicy_bumps h
      obtain ⟨hexp, rfl⟩ := checkAndBumpNonce_eq_ok h₁
      exact ⟨hexp, hrest.sameKind rfl⟩
    | _ => exact hf.sameKind rfl

end Calls

/-! ## Nonces are spent -/

/-- The call presents the nonce `n` of `holder`. -/
def Label.Presents (holder : Address) (n : Nat) (l : Label) : Prop :=
  l.nonce = some (holder, some n)

/-- The ledger is not closed past the last ledger of the holder's counter. -/
def KeepsNonce (holder : Address) (p : Leased) : Label → Prop
  | .closeLedger n => (p.state.get (.holderNonce holder)).isSome = true → n ≤ p.liveUntil holder
  | _ => True

section Run

variable {host : Host} {minTtl : Nat} {p q : Leased} {l : Label} {holder : Address}

theorem getHolderNonce_of_step (hok : KeepsNonce holder p l)
    (hstep : (leased host minTtl).step p l q) :
    p.state.getHolderNonce holder ≤ q.state.getHolderNonce holder ∧
      ∀ n, l.Presents holder n →
        n = p.state.getHolderNonce holder ∧ n < q.state.getHolderNonce holder := by
  cases l with
  | closeLedger n =>
    obtain ⟨-, -, rfl⟩ := hstep
    refine ⟨?_, fun _ h => nomatch h⟩
    by_cases hsome : (p.state.get (.holderNonce holder)).isSome = true
    · rw [State.getHolderNonce, State.getHolderNonce, get_dropExpired_of_live (hok hsome)]
      exact le_rfl
    · rw [State.getHolderNonce, Option.not_isSome_iff_eq_none.mp hsome]
      exact Nat.zero_le _
  | tokens b a =>
    obtain ⟨⟨-, hq⟩, -⟩ := hstep
    rw [hq]
    exact ⟨le_rfl, fun _ h => nomatch h⟩
  | call env c =>
    obtain ⟨⟨-, h⟩, -⟩ := hstep
    have hcall := nonce_of_call h
    unfold Label.Presents
    split at hcall
    case h_1 other expected heq =>
      obtain ⟨hexp, hsame⟩ := hcall
      rw [heq]
      by_cases hother : other = holder
      · subst hother
        have hbump : q.state.getHolderNonce other = p.state.getHolderNonce other + 1 := by
          rw [State.getHolderNonce, hsame _ rfl, State.get_set_self, Option.getD_some]
        refine ⟨by omega, ?_⟩
        intro n hn
        simp only [Option.some.injEq, Prod.mk.injEq, true_and] at hn
        have hn' := hexp n hn
        exact ⟨hn', by omega⟩
      · have hsame' : q.state.getHolderNonce holder = p.state.getHolderNonce holder := by
          rw [State.getHolderNonce, State.getHolderNonce, hsame _ rfl,
            State.get_set_of_ne _ _ (by simpa using Ne.symm hother)]
        refine ⟨hsame'.ge, ?_⟩
        intro n hn
        simp only [Option.some.injEq, Prod.mk.injEq] at hn
        exact absurd hn.1 hother
    case h_2 heq =>
      rw [heq]
      refine ⟨?_, fun _ h => nomatch h⟩
      rw [State.getHolderNonce, State.getHolderNonce, hcall _ rfl]

/-- **The counter has passed every nonce that was accepted**, while it is kept alive. -/
theorem spent_of_reach {g : List (Move Leased Label)}
    (h : (leased host minTtl).traced.Reach (fun p l => KeepsNonce holder p.1 l) (p, g)) :
    ∀ m ∈ g, ∀ n, m.label.Presents holder n → n < p.state.getHolderNonce holder := by
  refine h.trace_invariant (I := fun p g =>
    ∀ m ∈ g, ∀ n, m.label.Presents holder n → n < p.state.getHolderNonce holder) ?_ ?_
  · intro p _ m hm
    exact absurd hm List.not_mem_nil
  · intro p g l q _ hok hstep hI m hm n hn
    obtain ⟨hle, hpass⟩ := getHolderNonce_of_step hok hstep
    rcases List.mem_append.mp hm with hm | hm
    · exact (hI m hm n hn).trans_le hle
    · rw [List.mem_singleton.mp hm] at hn
      exact (hpass n hn).2

/-- **No nonce is accepted twice while the holder's counter is kept alive.**  In a run that never
closes a ledger past the last one of the holder's counter, a nonce that some `file_claim` or
`initiate_policy` of the run presented is not accepted again by either. -/
theorem nonce_accepted_once {g : List (Move Leased Label)} {m : Move Leased Label} {n : Nat}
    (h : (leased host minTtl).traced.Reach (fun p l => KeepsNonce holder p.1 l) (p, g))
    (hm : m ∈ g) (hpresented : m.label.Presents holder n) (hagain : l.Presents holder n) :
    ¬ (leased host minTtl).step p l q := by
  intro hstep
  have hok : KeepsNonce holder p l := by
    unfold KeepsNonce
    split
    · cases hagain
    · trivial
  have hspent := spent_of_reach h m hm n hpresented
  have hvalue := ((getHolderNonce_of_step hok hstep).2 n hagain).1
  omega

end Run

/-! ## Accepted once, and accepted again -/

/-- Execute one label of the leased contract, if it can be. -/
def Leased.taken (minTtl : Nat) (p : Leased) (l : Label) : Option Leased :=
  match l with
  | .closeLedger n =>
    if p.state.sequence ≤ n ∧ n ≤ U32_MAX then
      some ⟨{ p.state with sequence := n }.dropExpired p.liveUntil n, p.liveUntil⟩
    else none
  | l => (p.state.taken l).map fun s => ⟨s, p.renew minTtl l⟩

theorem step_of_leasedTaken {host : Host} {minTtl : Nat} {p q : Leased} {l : Label}
    (hon : l.On host) (h : p.taken minTtl l = some q) : (leased host minTtl).step p l q := by
  cases l with
  | closeLedger n =>
    dsimp only [Leased.taken] at h
    split at h
    · rename_i hn
      cases h
      exact ⟨hn.1, hn.2, rfl⟩
    · cases h
  | call env c =>
    obtain ⟨s, hs, rfl⟩ := Option.map_eq_some_iff.mp h
    exact ⟨step_of_taken hon hs, rfl⟩
  | tokens b a => cases h

/-- Account 1 binds a policy with its nonce. -/
def demoBindWith (policyType : PolicyType) (nonce : Nat) : Label :=
  demoCall (.policy (.initiatePolicy {
    holder := 1
    policyType := policyType
    region := .low
    ageBand := .adult
    coverageType := .basic
    safetyScore := 50
    baseAmount := 10000000
    asset := assetAddress
    options := {
      beneficiary := none
      deductible := none
      expectedNonce := some nonce
      metadataUri := ipfsScheme
      regionCode := none
      termsHash := demoTerms } }))

/-- The deployment with counters that run out. -/
def leasedDeployment : Leased := ⟨deployed 0, fun _ => 0⟩

/-- The check that keeps the counter of account 1 alive. -/
def keepsNonceCheck (p : Leased) : Label → Bool
  | .closeLedger n => (p.state.get (.holderNonce 1)).isNone || decide (n ≤ p.liveUntil 1)
  | .call _ _ => true
  | .tokens _ _ => false

theorem keepsNonce_of_check (p : Leased) (l : Label) (h : keepsNonceCheck p l = true) :
    KeepsNonce 1 p l := by
  unfold KeepsNonce
  split
  · intro hsome
    simp only [keepsNonceCheck, Bool.or_eq_true, Option.isNone_iff_eq_none,
      decide_eq_true_eq] at h
    rcases h with hnone | hle
    · rw [hnone] at hsome
      cases hsome
    · exact hle
  · trivial

theorem exists_leased {α : Type} {f : Leased × List (Move Leased Label) → α} {a : α}
    {check : Leased → Label → Bool} {ok : Leased → Label → Prop}
    (hcheck : ∀ p l, check p l = true → ok p l) (labels : List Label)
    (hon : ∀ l ∈ labels, l.On demoHost)
    (h : (followTraced (Leased.taken 16) check (leasedDeployment, []) labels).map f = some a) :
    ∃ p g, (leased demoHost 16).traced.Reach (fun p l => ok p.1 l) (p, g) ∧ f (p, g) = a :=
  exists_of_followTraced (Leased.taken 16) hcheck leasedDeployment labels
    (fresh_deployed (by decide)) (fun l hl _ _ ht => step_of_leasedTaken (hon l hl) ht) h

/-- Account 1 binds with nonce 0; ten days later its counter is in its last ledger, and nonce 0 is
refused. -/
theorem nonce_accepted_once_demo : ∃ p g, (leased demoHost 16).traced.Reach
    (fun p l => KeepsNonce 1 p.1 l) (p, g) ∧ p.state.sequence = 173800 ∧
      ∀ q, ¬ (leased demoHost 16).step p (demoBindWith .health 0) q := by
  obtain ⟨p, g, hreach, hval⟩ := exists_leased keepsNonce_of_check
    [demoInit, demoBindWith .auto 0, .closeLedger 173800]
    (f := fun p => (p.1.state.sequence, p.2.any fun m => m.label.nonce == some (1, some 0)))
    (a := (173800, true)) (by simp [demoInit, demoBindWith]) (by decide +kernel)
  simp only [Prod.mk.injEq] at hval
  obtain ⟨m, hm, hpresents⟩ := List.any_eq_true.mp hval.2
  have hpresented : m.label.Presents 1 0 := beq_iff_eq.mp hpresents
  exact ⟨p, g, hreach, hval.1, fun q => nonce_accepted_once hreach hm hpresented rfl⟩

/-- Account 1 binds with nonce 0; one ledger later its counter has run out, and nonce 0 is accepted
again. -/
theorem nonce_accepted_twice : ∃ p g m q,
    (leased demoHost 16).traced.Reach (fun p l => always p.1 l) (p, g) ∧ m ∈ g ∧
      m.label.Presents 1 0 ∧ (leased demoHost 16).step p (demoBindWith .health 0) q ∧
      (demoBindWith .health 0).Presents 1 0 := by
  have hall : ∀ (p : Leased) (l : Label), (fun _ _ => true : Leased → Label → Bool) p l = true →
      always p l := fun _ _ _ => trivial
  obtain ⟨p, g, hreach, hval⟩ := exists_leased hall
    [demoInit, demoBindWith .auto 0, .closeLedger 173801]
    (f := fun p => (p.2.any fun m => m.label.nonce == some (1, some 0),
      (p.1.taken 16 (demoBindWith .health 0)).isSome))
    (a := (true, true)) (by simp [demoInit, demoBindWith]) (by decide +kernel)
  simp only [Prod.mk.injEq] at hval
  obtain ⟨m, hm, hpresents⟩ := List.any_eq_true.mp hval.1
  obtain ⟨q, hq⟩ := Option.isSome_iff_exists.mp hval.2
  exact ⟨p, g, m, q, hreach, hm, beq_iff_eq.mp hpresents, step_of_leasedTaken rfl hq, rfl⟩

end NiffyInsure
