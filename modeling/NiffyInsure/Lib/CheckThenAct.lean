import Mathlib.Data.List.Nodup
import Mathlib.Logic.Function.Basic
import NiffyInsure.Lib.Concurrent

/-!
# Check, then act

Each of many concurrent calls looks whether a key is closed, acts on it if it is not, and then
closes it; the act may close the key itself.  A log holds the keys that were acted on.

* `Once`: no two calls have a key in hand, and no key was acted on twice.  `Once.take`, `Once.act`
  and `Once.release` keep it.
* `Move`: what one step of a call may do.
* `Reach.once`: every reached state is so, if a call that finds a key open finds it in no other
  call's hand.
* `View.Accounted`: every key that is closed was acted on or is in some call's hand.
-/

universe u v w x y z

namespace CheckThenAct

/-! ## Keys in hand -/

section Hands

variable {κ : Type w} {log : List κ} {closed closed' : κ → Prop} {hand : Nat → Option (κ × Bool)}
  {i : Nat} {k : κ} {acted : Bool}

/-- At most one call has a key in hand, no key was acted on twice, a key that was acted on is closed
or in the hand of the call that did, and a key that is in hand and not yet acted on never was. -/
structure Once (log : List κ) (closed : κ → Prop) (hand : Nat → Option (κ × Bool)) : Prop where
  alone : ∀ i j k a b, hand i = some (k, a) → hand j = some (k, b) → i = j
  once : log.Nodup
  noted : ∀ k ∈ log, closed k ∨ ∃ i, hand i = some (k, true)
  unacted : ∀ i k, hand i = some (k, false) → k ∉ log

theorem Once.nil (closed : κ → Prop) : Once [] closed fun _ => none where
  alone _ _ _ _ _ h := by cases h
  once := List.nodup_nil
  noted k hk := by cases hk
  unacted _ _ h := by cases h

theorem Once.mono (h : Once log closed hand) (hclosed : ∀ k, closed k → closed' k) :
    Once log closed' hand where
  alone := h.alone
  once := h.once
  noted k hk := (h.noted k hk).imp_left (hclosed k)
  unacted := h.unacted

theorem Once.take (h : Once log closed hand) (hi : hand i = none) (hk : ¬ closed k)
    (hfree : ∀ j acted, hand j ≠ some (k, acted)) :
    Once log closed (Function.update hand i (some (k, false))) := by
  have hnotin : k ∉ log := by
    intro hmem
    rcases h.noted k hmem with hmem | ⟨j, hj⟩
    · exact hk hmem
    · exact hfree j true hj
  refine ⟨?_, h.once, ?_, ?_⟩
  · intro j j' k' a b hj hj'
    rw [Function.update_apply] at hj hj'
    split at hj <;> split at hj'
    · rename_i hji hji'
      rw [hji, hji']
    · cases hj
      exact absurd hj' (hfree j' b)
    · cases hj'
      exact absurd hj (hfree j a)
    · exact h.alone j j' k' a b hj hj'
  · intro k' hk'
    apply (h.noted k' hk').imp_right
    rintro ⟨j, hj⟩
    have hji : j ≠ i := by
      rintro rfl
      rw [hi] at hj
      cases hj
    exact ⟨j, (Function.update_of_ne hji ..).trans hj⟩
  · intro j k' hj
    rw [Function.update_apply] at hj
    split at hj
    · cases hj
      exact hnotin
    · exact h.unacted j k' hj

theorem Once.act (h : Once log closed hand) (hi : hand i = some (k, false)) :
    Once (log ++ [k]) closed (Function.update hand i (some (k, true))) := by
  have hnotin : k ∉ log := h.unacted i k hi
  refine ⟨?_, ?_, ?_, ?_⟩
  · intro j j' k' a b hj hj'
    rw [Function.update_apply] at hj hj'
    split at hj <;> split at hj'
    · rename_i hji hji'
      rw [hji, hji']
    · rename_i hji _
      cases hj
      rw [hji]
      exact h.alone i j' k false b hi hj'
    · rename_i _ hji'
      cases hj'
      rw [hji']
      exact h.alone j i k a false hj hi
    · exact h.alone j j' k' a b hj hj'
  · refine List.nodup_append.mpr ⟨h.once, List.nodup_singleton k, ?_⟩
    rintro a ha b hb rfl
    rw [List.mem_singleton] at hb
    exact hnotin (hb ▸ ha)
  · intro k' hk'
    rcases List.mem_append.mp hk' with hk' | hk'
    · apply (h.noted k' hk').imp_right
      rintro ⟨j, hj⟩
      have hji : j ≠ i := by
        rintro rfl
        rw [hi] at hj
        cases hj
      exact ⟨j, (Function.update_of_ne hji ..).trans hj⟩
    · rw [List.mem_singleton.mp hk']
      exact .inr ⟨i, Function.update_self ..⟩
  · intro j k' hj hk'
    rw [Function.update_apply] at hj
    split at hj
    · cases hj
    · rename_i hji
      rcases List.mem_append.mp hk' with hk' | hk'
      · exact h.unacted j k' hj hk'
      · rw [List.mem_singleton.mp hk'] at hj
        exact hji (h.alone j i k _ _ hj hi)

/-- The call lets the key go: it has not acted on it, or the key is closed. -/
theorem Once.release (h : Once log closed hand) (hi : hand i = some (k, acted))
    (hk : acted = true → closed k) : Once log closed (Function.update hand i none) := by
  have hold : ∀ {j x}, Function.update hand i none j = some x → hand j = some x := by
    intro j x hj
    rw [Function.update_apply] at hj
    split at hj
    · cases hj
    · exact hj
  refine ⟨fun j j' k' a b hj hj' => h.alone j j' k' a b (hold hj) (hold hj'), h.once, ?_,
    fun j k' hj => h.unacted j k' (hold hj)⟩
  intro k' hk'
  rcases h.noted k' hk' with hk' | ⟨j, hj⟩
  · exact .inl hk'
  by_cases hji : j = i
  · rw [hji, hi] at hj
    cases hj
    exact .inl (hk rfl)
  · exact .inr ⟨j, (Function.update_of_ne hji ..).trans hj⟩

end Hands

/-! ## Programs -/

open Concurrent

/-- How the calls of a program are seen: which keys are closed, which were acted on, and the key
that a call has found open and not yet closed, with whether it has acted on it. -/
structure View (σ : Type u) (P : Type v) (κ : Type w) where
  closed : σ → κ → Prop
  log : σ → List κ
  inHand : P → Option (κ × Bool)

variable {σ : Type u} {P : Type v} {κ : Type w} {A : Type x} {O : Type y} {E : Type z}
  (v : View σ P κ) {s t : State σ P} {p : P} {q : σ × P} {i : Nat} {k : κ}

/-- No call has the key in hand. -/
def View.Free (s : State σ P) (k : κ) : Prop := ∀ p ∈ s.calls, ∀ acted, v.inHand p ≠ some (k, acted)

instance [DecidableEq κ] (s : State σ P) (k : κ) : Decidable (v.Free s k) :=
  inferInstanceAs (Decidable (∀ p ∈ s.calls, ∀ acted, v.inHand p ≠ some (k, acted)))

/-- What a step of a call at `p` does that leads to `q`. -/
inductive View.Move (s : State σ P) (p : P) (q : σ × P) : Prop
  /-- Nothing that counts. -/
  | stay (log : v.log q.1 = v.log s.shared) (hand : v.inHand q.2 = v.inHand p)
  /-- The key is found open, and no call has it in hand. -/
  | take (k : κ) (log : v.log q.1 = v.log s.shared) (before : v.inHand p = none)
      (after : v.inHand q.2 = some (k, false)) (opened : ¬ v.closed q.1 k) (free : v.Free s k)
  | act (k : κ) (log : v.log q.1 = v.log s.shared ++ [k]) (before : v.inHand p = some (k, false))
      (after : v.inHand q.2 = some (k, true))
  /-- The call gives up, or has closed the key on which it has acted. -/
  | release (k : κ) (acted : Bool) (log : v.log q.1 = v.log s.shared)
      (before : v.inHand p = some (k, acted)) (after : v.inHand q.2 = none)
      (closed : acted = true → v.closed q.1 k)
  /-- The act closes the key. -/
  | actAndClose (k : κ) (log : v.log q.1 = v.log s.shared ++ [k])
      (before : v.inHand p = some (k, false)) (after : v.inHand q.2 = none)
      (closed : v.closed q.1 k)

/-- The key that the call `i` has in hand. -/
def View.hand (s : State σ P) (i : Nat) : Option (κ × Bool) := s.calls[i]?.bind v.inHand

/-- `Once`, of the calls of a program. -/
def View.Once (s : State σ P) : Prop :=
  CheckThenAct.Once (v.log s.shared) (v.closed s.shared) (v.hand s)

variable {v}

theorem View.hand_put (hp : s.calls[i]? = some p) :
    v.hand (s.put i q) = Function.update (v.hand s) i (v.inHand q.2) := by
  have hlt : i < s.calls.length := (List.getElem?_eq_some_iff.mp hp).1
  funext j
  unfold View.hand State.put
  by_cases hj : j = i
  · rw [hj, List.getElem?_set_self hlt, Function.update_self]
    rfl
  · rw [List.getElem?_set_ne (Ne.symm hj), Function.update_of_ne hj]

theorem View.hand_add (hq : v.inHand q.2 = none) : v.hand (s.add q) = v.hand s := by
  funext j
  unfold View.hand State.add
  rcases Nat.lt_trichotomy j s.calls.length with hj | rfl | hj
  · rw [List.getElem?_append_left hj]
  · rw [List.getElem?_concat_length, List.getElem?_eq_none (Nat.le_refl _)]
    exact hq
  · rw [List.getElem?_eq_none (Nat.le_of_lt hj), List.getElem?_eq_none]
    rw [List.length_append]
    exact hj

theorem View.Free.hand (h : v.Free s k) (j : Nat) (acted : Bool) :
    v.hand s j ≠ some (k, acted) := by
  intro hj
  obtain ⟨p, hp, hin⟩ := Option.bind_eq_some_iff.mp hj
  exact h p (List.mem_of_getElem? hp) acted hin

/-- **What a step of a call keeps.** -/
theorem View.Once.put (h : v.Once s) (hp : s.calls[i]? = some p) (hmove : v.Move s p q)
    (hclosed : ∀ k, v.closed s.shared k → v.closed q.1 k) : v.Once (s.put i q) := by
  have hown : v.hand s i = v.inHand p := by
    rw [View.hand, hp]
    rfl
  have h := CheckThenAct.Once.mono h hclosed
  show CheckThenAct.Once (v.log q.1) (v.closed q.1) (v.hand (s.put i q))
  rw [View.hand_put hp]
  cases hmove with
  | stay log hand =>
    rw [log, hand, ← hown, Function.update_eq_self]
    exact h
  | take k log before after opened free =>
    rw [log, after]
    exact h.take (hown.trans before) opened free.hand
  | act k log before after =>
    rw [log, after]
    exact h.act (hown.trans before)
  | release k acted log before after closed =>
    rw [log, after]
    exact h.release (hown.trans before) closed
  | actAndClose k log before after closed =>
    rw [log, after]
    have hrelease := (h.act (hown.trans before)).release (Function.update_self ..) fun _ => closed
    rw [Function.update_idem] at hrelease
    exact hrelease

/-- Every key that is closed was acted on, or a call has it in hand. -/
def View.Accounted (v : View σ P κ) (s : State σ P) : Prop :=
  ∀ k, v.closed s.shared k → k ∈ v.log s.shared ∨ ∃ i acted, v.hand s i = some (k, acted)

/-- A call closes a key only if it has it in hand, and lets go of none that it has not acted on. -/
theorem View.Accounted.put (h : v.Accounted s) (hp : s.calls[i]? = some p)
    (hlog : ∀ k ∈ v.log s.shared, k ∈ v.log q.1)
    (hhand : ∀ k acted, v.inHand p = some (k, acted) →
      k ∈ v.log q.1 ∨ v.inHand q.2 = some (k, acted))
    (hclosed : ∀ k, v.closed q.1 k →
      v.closed s.shared k ∨ ∃ acted, v.inHand q.2 = some (k, acted)) :
    v.Accounted (s.put i q) := by
  intro k hk
  rw [View.hand_put hp]
  rcases hclosed k hk with hk | ⟨acted, hq⟩
  · rcases h k hk with hk | ⟨j, acted, hj⟩
    · exact .inl (hlog k hk)
    by_cases hij : j = i
    · rw [hij, View.hand, hp] at hj
      rcases hhand k acted hj with hk | hq
      · exact .inl hk
      · exact .inr ⟨i, acted, (Function.update_self ..).trans hq⟩
    · exact .inr ⟨j, acted, (Function.update_of_ne hij ..).trans hj⟩
  · exact .inr ⟨i, acted, (Function.update_self ..).trans hq⟩

/-- **No key is acted on twice** in a run in which every step of a call is a move.  The step may use
that its state was reached. -/
theorem Reach.once {prog : Program σ P A O E} {init : σ → Prop}
    {ok : State σ P → Label A O E → Prop} (hinit : ∀ shared, init shared → v.log shared = [])
    (hstart : ∀ s args q, ok s (.start args) → prog.start s.shared args = some q →
      v.inHand q.2 = none ∧ v.log q.1 = v.log s.shared ∧
        ∀ k, v.closed s.shared k → v.closed q.1 k)
    (hnext : ∀ s i outcome p q, (prog.machine init).Reach ok s → ok s (.next i outcome) →
      s.calls[i]? = some p → prog.next s.shared p outcome = some q →
        v.Move s p q ∧ ∀ k, v.closed s.shared k → v.closed q.1 k)
    (haround : ∀ s e shared, ok s (.around e) → prog.around s.shared e = some shared →
      v.log shared = v.log s.shared ∧ ∀ k, v.closed s.shared k → v.closed shared k)
    (h : (prog.machine init).Reach ok s) : v.Once s := by
  refine h.invariant_with (J := (prog.machine init).Reach ok) (I := v.Once) (fun _ hs => hs) ?_ ?_
  · rintro s ⟨hs, hnone⟩
    have hhand : v.hand s = fun _ => none := by
      funext i
      rw [View.hand, hnone]
      rfl
    show CheckThenAct.Once _ _ _
    rw [hinit _ hs, hhand]
    exact .nil _
  · rintro s l t hreach hl hstep hs
    rcases step_cases hstep with ⟨args, q, rfl, hq, rfl⟩ | ⟨i, outcome, p, q, rfl, hp, hq, rfl⟩ |
      ⟨e, shared, rfl, he, rfl⟩
    · obtain ⟨hhand, hlog, hclosed⟩ := hstart s args q hl hq
      show CheckThenAct.Once (v.log q.1) (v.closed q.1) _
      rw [hlog, View.hand_add hhand]
      exact hs.mono hclosed
    · obtain ⟨hmove, hclosed⟩ := hnext s i outcome p q hreach hl hp hq
      exact hs.put hp hmove hclosed
    · obtain ⟨hlog, hclosed⟩ := haround s e shared hl he
      show CheckThenAct.Once (v.log shared) (v.closed shared) (v.hand s)
      rw [hlog]
      exact hs.mono hclosed

end CheckThenAct
