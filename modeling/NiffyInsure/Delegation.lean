import NiffyInsure.Frame.Calls
import NiffyInsure.Trace

/-!
# Vote delegations

The unexpired delegations are a graph with at most one edge out of each holder
(`State.activeDelegate`).  `delegate_vote` refuses a delegate whose chain ends at the
delegator, and does not look at the points in between: a delegator that has an unexpired
delegation of its own can lie in the middle of the chain, and redirecting it then closes a
cycle.

* `acyclic_of_delegateVote`: the redirected graph is acyclic when the delegator is not in the
  middle of the chain; that it is not at its end is what the code checks.
* `resolveVoteDelegationTarget_iff`: in every state, the loop ends at the end of the chain or
  reports the cycle that the chain runs into.
* `delegations_acyclic_of_reach`: in every run in which no delegator is in the middle of the
  chain of its new delegate, the graph is acyclic and every voter has a target, now and at every
  later ledger.
-/

namespace NiffyInsure

open PointerChain Machine

/-! ## The graph of unexpired delegations -/

namespace State

variable {s s' : State}

theorem activeDelegate_congr (h : s'.get .voteDelegations = s.get .voteDelegations) (now : Nat) :
    s'.activeDelegate now = s.activeDelegate now := by
  funext a
  simp only [activeDelegate, getVoteDelegation, getVoteDelegations, h]

theorem activeDelegate_mono {now later : Nat} (h : now ≤ later) (a b : Address)
    (hab : s.activeDelegate later a = some b) : s.activeDelegate now a = some b := by
  unfold activeDelegate at hab ⊢
  split at hab
  · split at hab
    · cases hab
    · rename_i hexp
      rw [if_neg (by omega)]
      exact hab
  · cases hab

theorem acyclic_later {now later : Nat} (h : now ≤ later) (hac : Acyclic (s.activeDelegate now)) :
    Acyclic (s.activeDelegate later) :=
  hac.mono (activeDelegate_mono h)

/-- The addresses whose chain of unexpired delegations runs into a cycle. -/
def EntersCycle (s : State) (now : Nat) (start : Address) : Prop :=
  ∃ a, Leads (s.activeDelegate now) start a ∧ Relation.TransGen (Edge (s.activeDelegate now)) a a

/-- The address at the end of a chain of unexpired delegations: it has none of its own. -/
structure IsTarget (s : State) (now : Nat) (start target : Address) : Prop where
  leads : Leads (s.activeDelegate now) start target
  active : ∀ d, s.getVoteDelegation target = some d → d.expiryLedger < now

theorem activeDelegate_eq_none_iff {now : Nat} {a : Address} :
    s.activeDelegate now a = none ↔ ∀ d, s.getVoteDelegation a = some d → d.expiryLedger < now := by
  unfold activeDelegate
  cases hd : s.getVoteDelegation a with
  | none => simp
  | some d => simp

theorem IsTarget.of_walk {now : Nat} {start target : Address}
    (h : s.resolveVoteDelegationTarget start now = .ok target) : s.IsTarget now start target := by
  obtain ⟨hleads, hnone⟩ := s.leads_of_resolveVoteDelegationTarget h
  exact ⟨hleads, activeDelegate_eq_none_iff.mp hnone⟩

theorem IsTarget.unique {now : Nat} {start target target' : Address}
    (h : s.IsTarget now start target) (h' : s.IsTarget now start target') : target = target' :=
  h.leads.end_unique (activeDelegate_eq_none_iff.mpr h.active) h'.leads
    (activeDelegate_eq_none_iff.mpr h'.active)

theorem IsTarget.not_entersCycle {now : Nat} {start target : Address}
    (h : s.IsTarget now start target) : ¬ s.EntersCycle now start := by
  rintro ⟨a, hleads, hcycle⟩
  exact h.leads.not_cycle (activeDelegate_eq_none_iff.mpr h.active) hleads hcycle

theorem EntersCycle.of_walk {now : Nat} {start : Address}
    (h : s.resolveVoteDelegationTarget start now = .error (.error .circularDelegation)) :
    s.EntersCycle now start := by
  unfold resolveVoteDelegationTarget at h
  split at h
  · cases h
  · rename_i hcycle
    exact walk_eq_cycle _ _ _ (by simp) hcycle
  · cases h

theorem resolveVoteDelegationTarget_cases (s : State) (start : Address) (now : Nat) :
    (∃ target, s.resolveVoteDelegationTarget start now = .ok target) ∨
      s.resolveVoteDelegationTarget start now = .error (.error .circularDelegation) := by
  have htrap := s.resolveVoteDelegationTarget_ne_trap start now
  unfold resolveVoteDelegationTarget at htrap ⊢
  split
  · rename_i target _
    exact .inl ⟨target, rfl⟩
  · exact .inr rfl
  · rename_i hfuel
    simp [hfuel] at htrap

theorem walk_ne_outOfFuel (s : State) (start : Address) (now : Nat) :
    walk (s.activeDelegate now) (s.getVoteDelegations.keys.length + 1) [] start ≠ .outOfFuel := by
  intro hfuel
  have htrap := s.resolveVoteDelegationTarget_ne_trap start now
  simp [resolveVoteDelegationTarget, hfuel] at htrap

/-- However long it is run, the loop ends where it ends with one turn for each delegation and one
more. -/
theorem walk_of_le {start : Address} {now fuel : Nat}
    (h : s.getVoteDelegations.keys.length + 1 ≤ fuel) :
    walk (s.activeDelegate now) fuel [] start =
      walk (s.activeDelegate now) (s.getVoteDelegations.keys.length + 1) [] start := by
  obtain ⟨more, rfl⟩ := Nat.exists_eq_add_of_le h
  exact walk_add (s.walk_ne_outOfFuel start now) more _ _ _ rfl

/-- **The delegation loop ends**, with an error exactly if the unexpired delegations from the start
run into a cycle, and otherwise at the only address on the chain without an unexpired delegation. -/
theorem resolveVoteDelegationTarget_iff (s : State) (start : Address) (now : Nat) :
    (∀ fuel, s.getVoteDelegations.keys.length + 1 ≤ fuel →
      walk (s.activeDelegate now) fuel [] start ≠ .outOfFuel ∧
        walk (s.activeDelegate now) fuel [] start =
          walk (s.activeDelegate now) (s.getVoteDelegations.keys.length + 1) [] start) ∧
    (s.resolveVoteDelegationTarget start now = .error (.error .circularDelegation) ↔
      s.EntersCycle now start) ∧
    (¬ s.EntersCycle now start → ∃ target,
      s.resolveVoteDelegationTarget start now = .ok target ∧ s.IsTarget now start target ∧
        ∀ target', s.IsTarget now start target' → target' = target) := by
  refine ⟨fun fuel hfuel => ⟨?_, walk_of_le hfuel⟩, ⟨EntersCycle.of_walk, ?_⟩, ?_⟩
  · rw [walk_of_le hfuel]
    exact s.walk_ne_outOfFuel start now
  · intro hcycle
    cases s.resolveVoteDelegationTarget_cases start now with
    | inl hok =>
      obtain ⟨target, htarget⟩ := hok
      exact absurd hcycle (IsTarget.of_walk htarget).not_entersCycle
    | inr herror => exact herror
  · intro hnone
    cases s.resolveVoteDelegationTarget_cases start now with
    | inl hok =>
      obtain ⟨target, htarget⟩ := hok
      have hend := IsTarget.of_walk htarget
      exact ⟨target, htarget, hend, fun target' h => h.unique hend⟩
    | inr herror => exact absurd (EntersCycle.of_walk herror) hnone

theorem activeDelegate_setVoteDelegation (d t : Address) (expiry now : Nat) :
    (s.setVoteDelegation d ⟨t, expiry⟩).activeDelegate now =
      Function.update (s.activeDelegate now) d (if expiry < now then none else some t) := by
  funext a
  by_cases ha : a = d
  · subst ha
    simp [activeDelegate, setVoteDelegation, getVoteDelegation, getVoteDelegations]
  · rw [Function.update_of_ne ha]
    simp [activeDelegate, setVoteDelegation, getVoteDelegation, getVoteDelegations,
      AList.lookup_insert_ne ha]

end State

theorem acyclic_update_none {next : Address → Option Address} (h : Acyclic next) (d : Address) :
    Acyclic (Function.update next d none) := by
  refine h.mono fun a b hab => ?_
  by_cases had : a = d
  · subst had
    rw [Function.update_self] at hab
    cases hab
  · rwa [Function.update_of_ne had] at hab

section Steps

variable {env : Env} {s s' : State}

theorem delegateVote_eq_ok {d t : Address} {expiry : Nat}
    (h : delegateVote env s d t expiry = .ok s') :
    (∃ target, s.resolveVoteDelegationTarget t s.sequence = .ok target ∧ target ≠ d) ∧
      s' = s.setVoteDelegation d ⟨t, expiry⟩ := by
  simp only [delegateVote, bind_eq_ok, ensure_eq_ok, pure_eq_ok] at h
  obtain ⟨-, -, -, -, target, htarget, -, hne, rfl⟩ := h
  exact ⟨⟨target, htarget, hne⟩, rfl⟩

/-- A delegator with an unexpired delegation of its own is not on the chain of unexpired delegations
from its new delegate, or the new delegation is already expired. -/
def OffChain (s : State) (d t : Address) (expiry : Nat) : Prop :=
  s.sequence ≤ expiry → (s.activeDelegate s.sequence d).isSome = true →
    ¬ Leads (s.activeDelegate s.sequence) t d

theorem acyclic_of_delegateVote {d t : Address} {expiry : Nat}
    (h : delegateVote env s d t expiry = .ok s') (hoff : OffChain s d t expiry)
    (hac : Acyclic (s.activeDelegate s.sequence)) : Acyclic (s'.activeDelegate s'.sequence) := by
  obtain ⟨⟨target, htarget, hne⟩, rfl⟩ := delegateVote_eq_ok h
  rw [State.activeDelegate_setVoteDelegation]
  change Acyclic (Function.update (s.activeDelegate s.sequence) d
    (if expiry < s.sequence then none else some t))
  split
  · exact acyclic_update_none hac d
  · rename_i hexp
    refine hac.update fun hleads => ?_
    cases hd : s.activeDelegate s.sequence d with
    -- the delegator would be the end of the chain, which the call has compared with it
    | none =>
      obtain ⟨hchain, hnone⟩ := s.leads_of_resolveVoteDelegationTarget htarget
      exact hne (hchain.end_unique hnone hleads hd)
    | some b => exact hoff (by omega) (by rw [hd]; rfl) hleads

end Steps

/-! ## Runs -/

/-- The condition on a step: a `delegate_vote` is not made by a delegator in the middle of the
chain of its new delegate. -/
def DelegatesOffChain (s : State) : Label → Prop
  | .call _ (.claim (.delegateVote d t expiry)) => OffChain s d t expiry
  | _ => True

/-- A call other than `delegate_vote` leaves the delegations alone. -/
theorem delegations_of_exec {env : Env} {s s' : State} {c : Call} (h : c.exec env s = .ok s')
    (hc : c.kinds.contains .delegations = false) (hac : Acyclic (s.activeDelegate s.sequence)) :
    Acyclic (s'.activeDelegate s'.sequence) := by
  have hf := frame_exec h
  rw [hf.sequence, State.activeDelegate_congr (hf.get .voteDelegations hc)]
  exact hac

theorem acyclic_of_step {host : Host} (s : State) (l : Label) (s' : State)
    (hok : DelegatesOffChain s l) (hstep : (contract host).step s l s')
    (hac : Acyclic (s.activeDelegate s.sequence)) : Acyclic (s'.activeDelegate s'.sequence) := by
  cases l with
  | closeLedger n =>
    obtain ⟨hn, -, rfl⟩ := hstep
    exact State.acyclic_later hn hac
  | tokens b a =>
    obtain ⟨-, rfl⟩ := hstep
    exact hac
  | call env c =>
    obtain ⟨-, h⟩ := hstep
    cases c with
    | policy c => exact delegations_of_exec h (c.untouched rfl) hac
    | treasury c => exact delegations_of_exec h (c.untouched rfl) hac
    | setting c => exact delegations_of_exec h rfl hac
    | governance c => exact delegations_of_exec h (c.untouched rfl) hac
    | claim c =>
      cases c with
      | delegateVote d t expiry => exact acyclic_of_delegateVote h hok hac
      | _ => exact delegations_of_exec h rfl hac

theorem acyclic_of_fresh {host : Host} (s : State) (h : s.Fresh host) :
    Acyclic (s.activeDelegate s.sequence) := by
  intro a hcycle
  obtain ⟨b, hab, -⟩ := Relation.TransGen.head'_iff.mp hcycle
  simp [Edge, State.activeDelegate, State.getVoteDelegation, State.getVoteDelegations, h.get]
    at hab

/-- **Delegations stay acyclic.**  In every run whose delegators are not in the middle of the chain
of their new delegate, no unexpired delegations form a cycle, now or at a later ledger, and
following the delegations from any voter ends at a target. -/
theorem delegations_acyclic_of_reach {host : Host} {s : State}
    (h : (contract host).Reach DelegatesOffChain s) :
    ∀ now, s.sequence ≤ now → Acyclic (s.activeDelegate now) ∧
      ∀ voter, ∃ target, s.resolveVoteDelegationTarget voter now = .ok target := by
  have hac : Acyclic (s.activeDelegate s.sequence) :=
    h.invariant (I := fun s => Acyclic (s.activeDelegate s.sequence)) acyclic_of_fresh
      acyclic_of_step
  intro now hnow
  have hlater := State.acyclic_later hnow hac
  exact ⟨hlater, fun voter => s.exists_resolveVoteDelegationTarget hlater voter⟩

/-- A run that meets the condition: one account delegates to another. -/
theorem delegations_acyclic_one_edge :
    ∃ s, (contract demoHost).Reach DelegatesOffChain s ∧ s.activeDelegate s.sequence 1 = some 2 ∧
      ∃ target, s.resolveVoteDelegationTarget 1 s.sequence = .ok target := by
  have hstart : (contract demoHost).Reach DelegatesOffChain (deployed 0) :=
    .of_init (fresh_deployed (by decide))
  have hreach := hstart.tail (l := demoCall (.claim (.delegateVote 1 2 2000)))
    (t := (deployed 0).setVoteDelegation 1 ⟨2, 2000⟩) ?_ ⟨rfl, rfl⟩
  · exact ⟨_, hreach, by decide, (delegations_acyclic_of_reach hreach _ le_rfl).2 1⟩
  · intro _ hown
    cases hown

/-- The run that closes a cycle: 4 delegates to 26, then 20 to 4, and then 4 moves its
delegation to 20. -/
def cycleTrace : List Label :=
  [demoCall (.claim (.delegateVote 4 26 2000)), demoCall (.claim (.delegateVote 20 4 2000)),
    demoCall (.claim (.delegateVote 4 20 2000))]

/-- **A redirected delegation can close a cycle.** -/
theorem delegations_cycle :
    ∃ s, (contract demoHost).Reach always s ∧ ¬ Acyclic (s.activeDelegate s.sequence) ∧
      s.resolveVoteDelegationTarget 4 s.sequence = .error (.error .circularDelegation) := by
  obtain ⟨s, hreach, hval⟩ := exists_of_follow always_of_noCheck (deployed 0)
    cycleTrace (f := fun s => (s.activeDelegate s.sequence 4, s.activeDelegate s.sequence 20,
      decide (s.resolveVoteDelegationTarget 4 s.sequence =
        .error (.error .circularDelegation))))
    (a := (some 20, some 4, true)) (fresh_deployed (by decide))
    (by simp [cycleTrace]) (by decide)
  simp only [Prod.mk.injEq, decide_eq_true_eq] at hval
  obtain ⟨h₁, h₂, h₃⟩ := hval
  refine ⟨s, hreach, ?_, h₃⟩
  intro hac
  exact hac 4 (.head h₁ (.single h₂))

end NiffyInsure
