import Mathlib.Logic.Function.Basic
import Mathlib.Data.List.Basic

/-!
# Replaying a log of changes

A log of changes names, with every change, the key that changed, its old value and its new one.
A reader who starts from a default value for every key and takes the changes one after another
shows a value as long as the old value of every change is the one it shows; otherwise the log is
broken for that key and the reader shows nothing.

* `Shows`: the reader of the log shows `f`, at every key.
* `Shows.snoc`: it goes on to do so when the value of one key is changed and the change is logged.
-/

namespace Replay

variable {κ σ : Type} [DecidableEq κ] [DecidableEq σ]

/-- A change of the value of one key. -/
structure Change (κ σ : Type) where
  key : κ
  old : σ
  new : σ
  deriving DecidableEq

/-- What the reader shows for `k` after one more change. -/
def advance (k : κ) (shown : Option σ) (c : Change κ σ) : Option σ :=
  if c.key = k then if shown = some c.old then some c.new else none else shown

/-- What the reader shows for `k`, starting from `a`. -/
def replay (a : σ) (k : κ) (log : List (Change κ σ)) : Option σ :=
  log.foldl (advance k) (some a)

/-- The reader of the log shows the values `f`. -/
def Shows (a : σ) (log : List (Change κ σ)) (f : κ → σ) : Prop :=
  ∀ k, replay a k log = some (f k)

theorem replay_snoc (a : σ) (k : κ) (log : List (Change κ σ)) (c : Change κ σ) :
    replay a k (log ++ [c]) = advance k (replay a k log) c := by
  simp [replay]

namespace Shows

variable {a : σ} {log : List (Change κ σ)} {f : κ → σ}

theorem nil (a : σ) : Shows a ([] : List (Change κ σ)) fun _ => a := fun _ => rfl

/-- **A change that is logged is shown.** -/
theorem snoc (h : Shows a log f) (k : κ) (b : σ) :
    Shows a (log ++ [⟨k, f k, b⟩]) (Function.update f k b) := by
  intro i
  rw [replay_snoc, h i, advance]
  by_cases hik : k = i
  · subst hik
    rw [if_pos rfl, if_pos rfl, Function.update_self]
  · rw [if_neg hik, Function.update_of_ne (Ne.symm hik)]

end Shows

end Replay
