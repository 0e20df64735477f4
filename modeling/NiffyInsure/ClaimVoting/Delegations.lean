import NiffyInsure.ClaimVoting.Contract

/-!
# The delegations of the claim-voting contract

`delegate_vote` is to refuse a delegate that delegates itself and a delegator that is a delegate,
so that no chain A -> B -> C forms.  The second check reads the list of the delegate and not of the
delegator: it lets chains through, and it refuses every second delegator of a delegate.  A delegator
that turns to another delegate also stays in the list of the old one.

* `sound_of_delegateVote`: a delegation that redirects nothing, by an address that is no delegate,
  keeps the structure.
* `delegations_sound_of_reach`: so in every run of such delegations there is no chain, the reverse
  lists are exact, and a delegate takes a new delegator where it has none.
-/

namespace NiffyInsure.ClaimVoting

open Machine

/-- The delegation stored for `a` points at `d`. -/
def State.PointsTo (s : State) (a d : Address) : Prop :=
  ∃ del, s.delegation a = some del ∧ del.delegate = d

/-- There is no chain of two active delegations, and the reverse lists are exact. -/
structure State.DelegationsSound (s : State) : Prop where
  noChain : ∀ a b c, s.delegatesTo a b = true → s.delegatesTo b c = false
  nodup : ∀ d, (s.delegators d).Nodup
  exact : ∀ d a, a ∈ s.delegators d ↔ s.PointsTo a d

/-- A freshly deployed contract, with any claims. -/
structure State.Fresh (s : State) : Prop where
  delegation : ∀ a, s.delegation a = none
  delegators : ∀ d, s.delegators d = []

/-- The condition on a step: a delegation does not redirect a stored one, and the delegator is not
the target of an active one. -/
def KeepsDelegations (s : State) : Label → Prop
  | .call _ (.delegateVote delegator delegate _) =>
    (∀ d, s.PointsTo delegator d → d = delegate) ∧ ∀ a, s.delegatesTo a delegator = false
  | _ => True

section Steps

variable {s s' : State} {auths : Address → Bool}

theorem State.Fresh.sound (h : s.Fresh) : s.DelegationsSound where
  noChain a b c hab := by
    rw [delegatesTo_iff] at hab
    obtain ⟨d, hd, -⟩ := hab
    rw [getVoteDelegation_eq_some, h.delegation] at hd
    cases hd.1
  nodup d := by
    rw [h.delegators]
    exact List.nodup_nil
  exact d a := by
    rw [h.delegators]
    constructor
    · intro hmem
      cases hmem
    · rintro ⟨del, hdel, -⟩
      rw [h.delegation] at hdel
      cases hdel

theorem delegatesTo_mono {a b : Address} (hdel : s'.delegation = s.delegation)
    (hseq : s.sequence ≤ s'.sequence) (h : s'.delegatesTo a b = true) :
    s.delegatesTo a b = true := by
  rw [delegatesTo_iff] at h ⊢
  obtain ⟨d, hd, hto⟩ := h
  rw [getVoteDelegation_eq_some, hdel] at hd
  exact ⟨d, getVoteDelegation_eq_some.mpr ⟨hd.1, by omega⟩, hto⟩

theorem State.DelegationsSound.of_same (h : s.DelegationsSound)
    (hdel : s'.delegation = s.delegation) (hlists : s'.delegators = s.delegators)
    (hseq : s.sequence ≤ s'.sequence) : s'.DelegationsSound where
  noChain a b c hab := by
    have hno := h.noChain a b c (delegatesTo_mono hdel hseq hab)
    rw [Bool.eq_false_iff] at hno ⊢
    exact fun hbc => hno (delegatesTo_mono hdel hseq hbc)
  nodup d := by
    rw [hlists]
    exact h.nodup d
  exact d a := by
    rw [hlists, h.exact]
    unfold State.PointsTo
    rw [hdel]

theorem delegatesTo_update {o : Option VoteDelegation} {x : Address}
    (hdel : s'.delegation = Function.update s.delegation x o) (hseq : s'.sequence = s.sequence)
    {a b : Address} (hne : a ≠ x) : s'.delegatesTo a b = s.delegatesTo a b := by
  unfold State.delegatesTo State.getVoteDelegation
  rw [hdel, hseq, Function.update_of_ne hne]

theorem pointsTo_update {o : Option VoteDelegation} {x : Address}
    (hdel : s'.delegation = Function.update s.delegation x o) {a d : Address} (hne : a ≠ x) :
    s'.PointsTo a d ↔ s.PointsTo a d := by
  unfold State.PointsTo
  rw [hdel, Function.update_of_ne hne]

theorem mem_update {d x a : Address} {f : Address → List Address} {l : List Address} :
    a ∈ Function.update f x l d ↔ (d = x ∧ a ∈ l) ∨ (d ≠ x ∧ a ∈ f d) := by
  by_cases hd : d = x
  · subst hd
    simp
  · simp [hd]

/-- **A delegation that redirects nothing, by an address that is no delegate.** -/
theorem sound_of_delegateVote {delegator delegate : Address} {expiry : Nat}
    (hs : s.DelegationsSound)
    (hok : KeepsDelegations s (.call auths (.delegateVote delegator delegate expiry)))
    (h : s.delegateVote auths delegator delegate expiry = .ok s') : s'.DelegationsSound := by
  obtain ⟨hredirect, htarget⟩ := hok
  obtain ⟨-, hself, hexp, hchain, hlist, hs'⟩ := delegateVote_eq_ok_iff.mp h
  have hdel : s'.delegation = Function.update s.delegation delegator (some ⟨delegate, expiry⟩) := by
    rw [hs']
  have hlists : s'.delegators = Function.update s.delegators delegate [delegator] := by rw [hs']
  have hseq : s'.sequence = s.sequence := by rw [hs']
  -- by the reverse lists, an address that points at the delegate would be listed
  have hnone : ∀ a, ¬ s.PointsTo a delegate := by
    intro a ha
    have hmem := (hs.exact delegate a).mpr ha
    rw [hlist] at hmem
    cases hmem
  have hold : ∀ d, ¬ s.PointsTo delegator d := by
    intro d hd
    rw [hredirect d hd] at hd
    exact hnone delegator hd
  have hnew : ∀ d, s'.PointsTo delegator d ↔ d = delegate := by
    intro d
    unfold State.PointsTo
    rw [hdel, Function.update_self]
    constructor
    · rintro ⟨del, hd, rfl⟩
      cases hd
      rfl
    · rintro rfl
      exact ⟨_, rfl, rfl⟩
  constructor
  · intro a b c hab
    rw [Bool.eq_false_iff]
    intro hbc
    by_cases ha : a = delegator
    · -- the new delegation, and one of the delegate's own
      subst ha
      obtain ⟨d, hd, hto⟩ := delegatesTo_iff.mp hab
      have hb : b = delegate := (hnew b).mp ⟨d, (getVoteDelegation_eq_some.mp hd).1, hto⟩
      rw [hb, delegatesTo_update hdel hseq hself.symm, delegatesTo_iff, hchain] at hbc
      obtain ⟨d', hd', -⟩ := hbc
      cases hd'
    · rw [delegatesTo_update hdel hseq ha] at hab
      by_cases hb : b = delegator
      · rw [hb, htarget] at hab
        cases hab
      · rw [delegatesTo_update hdel hseq hb, hs.noChain a b c hab] at hbc
        cases hbc
  · intro d
    rw [hlists]
    by_cases hd : d = delegate
    · rw [hd, Function.update_self]
      exact List.nodup_singleton delegator
    · rw [Function.update_of_ne hd]
      exact hs.nodup d
  · intro d a
    rw [hlists, mem_update, List.mem_singleton, hs.exact]
    by_cases ha : a = delegator
    · rw [ha, hnew]
      simp [hold]
    · rw [pointsTo_update hdel ha]
      constructor
      · rintro (⟨-, heq⟩ | ⟨-, hp⟩)
        · exact absurd heq ha
        · exact hp
      · intro hp
        refine .inr ⟨?_, hp⟩
        rintro rfl
        exact hnone a hp

theorem sound_of_revokeVoteDelegation {delegator : Address} (hs : s.DelegationsSound)
    (h : s.revokeVoteDelegation auths delegator = .ok s') : s'.DelegationsSound := by
  obtain ⟨-, rfl⟩ | ⟨del, hold, hs'⟩ := revokeVoteDelegation_eq_ok h
  · exact hs
  have hdel : s'.delegation = Function.update s.delegation delegator none := by rw [hs']
  have hlists : s'.delegators = Function.update s.delegators del.delegate
      ((s.delegators del.delegate).erase delegator) := by rw [hs']
  have hseq : s'.sequence = s.sequence := by rw [hs']
  have hgone : ∀ d, ¬ s'.PointsTo delegator d := by
    rintro d ⟨del', hdel', -⟩
    rw [hdel, Function.update_self] at hdel'
    cases hdel'
  constructor
  · intro a b c hab
    rw [Bool.eq_false_iff]
    intro hbc
    by_cases ha : a = delegator
    · obtain ⟨d, hd, hto⟩ := delegatesTo_iff.mp hab
      rw [ha] at hd
      exact hgone b ⟨d, (getVoteDelegation_eq_some.mp hd).1, hto⟩
    · rw [delegatesTo_update hdel hseq ha] at hab
      by_cases hb : b = delegator
      · obtain ⟨d, hd, hto⟩ := delegatesTo_iff.mp hbc
        rw [hb] at hd
        exact hgone c ⟨d, (getVoteDelegation_eq_some.mp hd).1, hto⟩
      · rw [delegatesTo_update hdel hseq hb, hs.noChain a b c hab] at hbc
        cases hbc
  · intro d
    rw [hlists]
    by_cases hd : d = del.delegate
    · rw [hd, Function.update_self]
      exact (hs.nodup del.delegate).erase delegator
    · rw [Function.update_of_ne hd]
      exact hs.nodup d
  · intro d a
    rw [hlists, mem_update, (hs.nodup del.delegate).mem_erase_iff, hs.exact, hs.exact]
    by_cases ha : a = delegator
    · -- the old delegation pointed at `del.delegate` alone
      have honly : s.PointsTo delegator d → d = del.delegate := by
        rintro ⟨del', hdel', rfl⟩
        rw [hold] at hdel'
        cases hdel'
        rfl
      rw [ha]
      constructor
      · rintro (⟨-, hne, -⟩ | ⟨hne, hp⟩)
        · exact absurd rfl hne
        · exact absurd (honly hp) hne
      · intro hp
        exact absurd hp (hgone d)
    · rw [pointsTo_update hdel ha]
      constructor
      · rintro (⟨heq, -, hp⟩ | ⟨-, hp⟩)
        · rw [heq]
          exact hp
        · exact hp
      · intro hp
        by_cases hd : d = del.delegate
        · exact .inl ⟨hd, ha, hd ▸ hp⟩
        · exact .inr ⟨hd, hp⟩

theorem same_of_castVote {voter : Address} {claimId : Nat} {choice : VoteChoice}
    (h : s.castVote auths voter claimId choice = .ok s') :
    s'.delegation = s.delegation ∧ s'.delegators = s.delegators ∧ s'.sequence = s.sequence := by
  obtain ⟨claim, n₁, n₂, -, -, -, -, -, -, rfl⟩ := castVote_eq_ok h
  exact ⟨rfl, rfl, rfl⟩

theorem sound_of_step (s : State) (l : Label) (s' : State) (hok : KeepsDelegations s l)
    (hstep : s.Step l s') (hs : s.DelegationsSound) : s'.DelegationsSound := by
  obtain ⟨auths, c, rfl, hexec⟩ | rfl | ⟨n, hle, rfl⟩ := step_cases hstep
  · cases c with
    | delegateVote => exact sound_of_delegateVote hs hok hexec
    | revokeVoteDelegation => exact sound_of_revokeVoteDelegation hs hexec
    | castVote =>
      obtain ⟨hdel, hlists, hseq⟩ := same_of_castVote hexec
      exact hs.of_same hdel hlists (Nat.le_of_eq hseq.symm)
  · exact hs
  · exact hs.of_same rfl rfl hle

end Steps

/-- **The structure of the delegations** in every run in which no delegation redirects a stored one
and no delegator is the target of an active one.  No active delegator is the target of an active
delegation, the list of a delegate has each address whose stored delegation points at it once, and
a delegate that does not delegate takes a new delegator exactly where it has none. -/
theorem delegations_sound_of_reach {s : State}
    (h : (machine State.Fresh).Reach KeepsDelegations s) :
    (∀ a b c, s.delegatesTo a b = true → s.delegatesTo b c = false) ∧
      (∀ d, (s.delegators d).Nodup ∧ ∀ a, a ∈ s.delegators d ↔ s.PointsTo a d) ∧
      ∀ auths delegator d expiry, auths delegator = true → delegator ≠ d → s.sequence < expiry →
        s.getVoteDelegation d = none →
        ((∃ s', s.delegateVote auths delegator d expiry = .ok s') ↔ s.delegators d = []) := by
  have hs : s.DelegationsSound :=
    h.invariant (I := State.DelegationsSound) (fun _ => State.Fresh.sound) sound_of_step
  refine ⟨hs.noChain, fun d => ⟨hs.nodup d, hs.exact d⟩, ?_⟩
  intro auths delegator d expiry hauth hself hexp hchain
  constructor
  · rintro ⟨s', hs'⟩
    obtain ⟨-, -, -, -, hlist, -⟩ := delegateVote_eq_ok_iff.mp hs'
    exact hlist
  · intro hlist
    exact ⟨_, delegateVote_eq_ok_iff.mpr ⟨hauth, hself, hexp, hchain, hlist, rfl⟩⟩

/-- A deployment with no claims. -/
def deployed : State where
  delegation := fun _ => none
  delegators := fun _ => []
  claim := fun _ => none
  voted := fun _ => ∅
  sequence := 100
  ballots := []

/-- Everybody has authorised the call. -/
def everybody : Address → Bool := fun _ => true

theorem reach_foldl {init : State → Prop} :
    ∀ (cs : List Call) {s : State}, (machine init).Reach always s →
      (machine init).Reach always (cs.foldl (fun s c => s.invoke everybody c) s) := by
  intro cs
  induction cs with
  | nil => exact fun h => h
  | cons c rest ih =>
    intro s h
    exact ih (h.tail (l := .call everybody c) trivial rfl)

/-- Account 1 delegates to account 2. -/
theorem delegations_sound_once : ∃ s, (machine State.Fresh).Reach KeepsDelegations s ∧
    s.delegators 2 = [1] ∧ (∀ b c, s.delegatesTo 2 b = true → s.delegatesTo b c = false) ∧
    (s.delegators 2).Nodup := by
  have hreach : (machine State.Fresh).Reach KeepsDelegations
      (deployed.invoke everybody (.delegateVote 1 2 500)) := by
    refine Reach.tail (s := deployed) (l := .call everybody (.delegateVote 1 2 500)) ?_ ?_ rfl
    · exact .of_init ⟨fun _ => rfl, fun _ => rfl⟩
    · refine ⟨?_, fun a => rfl⟩
      rintro d ⟨del, hdel, -⟩
      cases hdel
  obtain ⟨hchain, hlists, -⟩ := delegations_sound_of_reach hreach
  exact ⟨_, hreach, rfl, hchain 2, (hlists 2).1⟩

/-- **Chains, refused delegators and stale lists.**  Account 1 delegates to 2 and 2 to 3: both
delegations are active.  Account 5 is no delegate and 3 has one delegator and does not delegate,
but 5 cannot delegate to 3.  Account 1 turns to 4 and stays in the list of 2. -/
theorem delegations_chained : ∃ s, (machine State.Fresh).Reach always s ∧
    s.delegatesTo 1 2 = true ∧ s.delegatesTo 2 3 = true ∧
    s.getVoteDelegation 3 = none ∧ (∀ a, s.delegatesTo a 5 = false) ∧ s.delegators 3 = [2] ∧
    s.delegateVote everybody 5 3 500 = .error .delegationChain ∧
    1 ∈ (s.invoke everybody (.delegateVote 1 4 500)).delegators 2 ∧
    (s.invoke everybody (.delegateVote 1 4 500)).PointsTo 1 4 := by
  refine ⟨[Call.delegateVote 1 2 500, .delegateVote 2 3 500].foldl
    (fun s c => s.invoke everybody c) deployed,
    reach_foldl _ (.of_init ⟨fun _ => rfl, fun _ => rfl⟩), by decide, by decide, by decide, ?_,
    by decide, rfl, by decide, ⟨⟨4, 500⟩, by decide, rfl⟩⟩
  intro a
  by_cases h₂ : a = 2
  · rw [h₂]
    decide
  · by_cases h₁ : a = 1
    · rw [h₁]
      decide
    · have hnone : ([Call.delegateVote 1 2 500, .delegateVote 2 3 500].foldl
          (fun s c => s.invoke everybody c) deployed).delegation a = none := by
        change Function.update (Function.update deployed.delegation 1 _) 2 _ a = none
        rw [Function.update_of_ne h₂, Function.update_of_ne h₁]
        rfl
      simp only [State.delegatesTo, State.getVoteDelegation, hnone, Option.filter_none]

end NiffyInsure.ClaimVoting
