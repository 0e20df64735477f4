import Mathlib.Logic.Function.Basic

/-!
# A store whose entries expire

Every entry has a time from which on it is no longer there.  `set`, `delete` and `pass` (the time
goes on) take entries away; only `set` brings one.
-/

universe u v

/-- The time, and the entries with their expiry. -/
structure Expiring (κ : Type u) (β : Type v) where
  now : Nat
  entries : κ → Option (β × Nat)

namespace Expiring

variable {κ : Type u} {β : Type v} {s : Expiring κ β} {k k' : κ} {b b' : β} {ttl n : Nat}

def empty : Expiring κ β := ⟨0, fun _ => none⟩

/-- What is there under a key. -/
def get (s : Expiring κ β) (k : κ) : Option β :=
  (s.entries k).bind fun e => if s.now < e.2 then some e.1 else none

def set [DecidableEq κ] (s : Expiring κ β) (k : κ) (b : β) (ttl : Nat) : Expiring κ β :=
  { s with entries := Function.update s.entries k (some (b, s.now + ttl)) }

def delete [DecidableEq κ] (s : Expiring κ β) (k : κ) : Expiring κ β :=
  { s with entries := Function.update s.entries k none }

/-- The time goes on. -/
def pass (s : Expiring κ β) (n : Nat) : Expiring κ β := { s with now := s.now + n }

theorem get_eq_some : s.get k = some b ↔ ∃ expiry, s.entries k = some (b, expiry) ∧
    s.now < expiry := by
  unfold get
  rw [Option.bind_eq_some_iff]
  constructor
  · rintro ⟨⟨c, expiry⟩, he, h⟩
    split at h
    · rename_i hlt
      cases h
      exact ⟨expiry, he, hlt⟩
    · cases h
  · rintro ⟨expiry, he, hlt⟩
    exact ⟨(b, expiry), he, if_pos hlt⟩

/-- Under the key that was written there is what was written, if anything. -/
theorem get_set_self [DecidableEq κ] (h : (s.set k b ttl).get k = some b') : b' = b := by
  obtain ⟨expiry, he, -⟩ := get_eq_some.mp h
  change Function.update s.entries k _ k = _ at he
  rw [Function.update_self] at he
  cases he
  rfl

theorem get_set_of_ne [DecidableEq κ] (h : k' ≠ k) : (s.set k b ttl).get k' = s.get k' := by
  have hsame : (s.set k b ttl).entries k' = s.entries k' := Function.update_of_ne h ..
  unfold get
  rw [hsame]
  rfl

theorem get_of_delete [DecidableEq κ] (h : (s.delete k).get k' = some b) : s.get k' = some b := by
  obtain ⟨expiry, he, hlt⟩ := get_eq_some.mp h
  change Function.update s.entries k _ k' = _ at he
  rw [Function.update_apply] at he
  split at he
  · cases he
  · exact get_eq_some.mpr ⟨expiry, he, hlt⟩

theorem get_of_pass (h : (s.pass n).get k = some b) : s.get k = some b := by
  obtain ⟨expiry, he, hlt⟩ := get_eq_some.mp h
  exact get_eq_some.mpr ⟨expiry, he, Nat.lt_of_le_of_lt (Nat.le_add_right s.now n) hlt⟩

end Expiring
