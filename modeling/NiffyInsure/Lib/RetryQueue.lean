import Mathlib.Data.Nat.Notation

/-!
# Jobs that are tried again

A queue runs the processor of a job until it returns or the job has been attempted as often as it
may be.  What a processor does before it throws stays done.

* `finish_of_returns`, `finish_of_throws`: one attempt.
* `finish_cases`: what every attempt that throws keeps holds when an attempt returns, or when there
  is none left.
-/

universe u v

namespace RetryQueue

inductive Status where
  | completed
  | failed
  deriving DecidableEq

/-- A job that the queue has finished with, and the state that it leaves. -/
structure Finished (σ : Type u) where
  attemptsMade : ℕ
  status : Status
  state : σ

/-- From the number of attempts made before, whether the processor returns or throws, and what it
does. -/
abbrev Processor (ε : Type v) (σ : Type u) : Type (max u v) := ℕ → σ → Except ε Unit × σ

variable {σ : Type u} {ε : Type v} {process : Processor ε σ} {made left : ℕ} {s s' : σ}

/-- A job that has been attempted `made` times and may be attempted another `left` times. -/
def finish (process : Processor ε σ) : ℕ → ℕ → σ → Finished σ
  | made, 0, s => ⟨made, .failed, s⟩
  | made, left + 1, s =>
    match process made s with
    | (.ok _, s) => ⟨made + 1, .completed, s⟩
    | (.error _, s) => finish process (made + 1) left s

theorem finish_of_returns (h : process made s = (.ok (), s')) :
    finish process made (left + 1) s = ⟨made + 1, .completed, s'⟩ := by
  rw [finish, h]

theorem finish_of_throws {e : ε} (h : process made s = (.error e, s')) :
    finish process made (left + 1) s = finish process (made + 1) left s' := by
  rw [finish, h]

/-- **How a job ends.**  Either an attempt returns, and `I` still holds before it, or all attempts
throw, and `I` holds after them. -/
theorem finish_cases (left : ℕ) (I : ℕ → σ → Prop)
    (hthrow : ∀ n s e s', I n s → process n s = (.error e, s') → I (n + 1) s') (h : I made s) :
    (∃ n s₁ s₂, n < made + left ∧ I n s₁ ∧ process n s₁ = (.ok (), s₂) ∧
      finish process made left s = ⟨n + 1, .completed, s₂⟩) ∨
    ∃ s', I (made + left) s' ∧ finish process made left s = ⟨made + left, .failed, s'⟩ := by
  induction left generalizing made s with
  | zero => exact .inr ⟨s, h, rfl⟩
  | succ left ih =>
    obtain ⟨result, s₁, hrun⟩ : ∃ result s₁, process made s = (result, s₁) := ⟨_, _, rfl⟩
    cases result with
    | ok _ => exact .inl ⟨made, s, s₁, by omega, h, hrun, finish_of_returns hrun⟩
    | error e =>
      rw [finish_of_throws hrun, show made + (left + 1) = made + 1 + left by omega]
      exact ih (hthrow made s e s₁ h hrun)

end RetryQueue
