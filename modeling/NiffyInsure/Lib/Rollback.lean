import Mathlib.Logic.Basic

/-!
# Calls that write as they go

In `EStateM` a call that fails leaves what it had written before.  A host that runs such calls takes
the writes of a failed call back.

* `run_bind_eq_ok` and the like: what is known of a call that succeeded, one lemma for each way in
  which calls are built.
* `invoke`: a call under such a host.  `invoke_of_error`: it changes nothing when it fails.
-/

universe u

namespace Rollback

variable {ε σ α β : Type u} {s t : σ}

theorem run_bind_eq_ok {x : EStateM ε σ α} {f : α → EStateM ε σ β} {b : β} :
    (x >>= f).run s = .ok b t ↔ ∃ a s', x.run s = .ok a s' ∧ (f a).run s' = .ok b t := by
  show x.bind f s = _ ↔ _
  unfold EStateM.bind EStateM.run
  cases hx : x s with
  | ok a s' =>
    constructor
    · exact fun h => ⟨a, s', rfl, h⟩
    · rintro ⟨_, _, heq, h⟩
      cases heq
      exact h
  | error e s' => simp

theorem run_pure_eq_ok {a b : α} :
    (pure a : EStateM ε σ α).run s = .ok b t ↔ b = a ∧ t = s := by
  show EStateM.Result.ok a s = _ ↔ _
  simp [eq_comm]

theorem run_get_eq_ok {b : σ} : (get : EStateM ε σ σ).run s = .ok b t ↔ b = s ∧ t = s := by
  show EStateM.Result.ok s s = _ ↔ _
  simp [eq_comm]

theorem run_set_eq_ok {b : PUnit} {s' : σ} :
    (set s' : EStateM ε σ PUnit).run s = .ok b t ↔ t = s' := by
  show EStateM.Result.ok PUnit.unit s' = _ ↔ _
  simp [eq_comm]

theorem run_modify_eq_ok {f : σ → σ} {b : PUnit} :
    (modify f : EStateM ε σ PUnit).run s = .ok b t ↔ t = f s := by
  show EStateM.Result.ok PUnit.unit (f s) = _ ↔ _
  simp [eq_comm]

theorem run_modifyGet_eq_ok {f : σ → α × σ} {b : α} :
    (modifyGet f : EStateM ε σ α).run s = .ok b t ↔ f s = (b, t) := by
  show EStateM.Result.ok (f s).1 (f s).2 = _ ↔ _
  rw [Prod.ext_iff]
  simp

theorem run_throw_eq_ok {e : ε} {b : α} :
    (throw e : EStateM ε σ α).run s = .ok b t ↔ False := by
  show EStateM.Result.error e s = _ ↔ _
  simp

/-- A check that throws. -/
theorem run_guard_eq_ok {p : Prop} [Decidable p] {e : ε} {x : EStateM ε σ α} {b : α} :
    (if p then throw e else x).run s = .ok b t ↔ ¬ p ∧ x.run s = .ok b t := by
  split
  · rename_i hp
    simp [run_throw_eq_ok, hp]
  · rename_i hp
    simp [hp]

/-- A check without which it throws. -/
theorem run_require_eq_ok {p : Prop} [Decidable p] {e : ε} {x : EStateM ε σ α} {b : α} :
    (if p then x else throw e).run s = .ok b t ↔ p ∧ x.run s = .ok b t := by
  split
  · rename_i hp
    simp [hp]
  · rename_i hp
    simp [run_throw_eq_ok, hp]

/-- The host runs a call, and takes back its writes when it fails. -/
def invoke (call : EStateM ε σ α) (s : σ) : Except ε α × σ :=
  match call.run s with
  | .ok a s' => (.ok a, s')
  | .error e _ => (.error e, s)

/-- **A call that fails changes nothing** under the host. -/
theorem invoke_of_error {call : EStateM ε σ α} {e : ε} (h : (invoke call s).1 = .error e) :
    (invoke call s).2 = s := by
  unfold invoke at h ⊢
  split
  · rename_i hrun
    rw [hrun] at h
    cases h
  · rfl

/-- The state after a call under the host: what it wrote, or the state before. -/
theorem invoke_cases (call : EStateM ε σ α) (s : σ) :
    (∃ a, call.run s = .ok a (invoke call s).2) ∨ (invoke call s).2 = s := by
  unfold invoke
  split
  · rename_i a s' hrun
    exact .inl ⟨a, hrun⟩
  · exact .inr rfl

end Rollback
