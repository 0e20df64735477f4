import Mathlib.Data.List.Basic

/-!
# Parts joined by a separator

Two parts that are written one after the other with a separator between them can be told apart as
long as the first has no separator in it.  Otherwise a separator in a part can be taken for the one
between the parts.

* `join_eq_join_iff`: when two pairs are written in the same way.
* `exists_join_iff`: which first parts can stand at the front of the same text.
-/

namespace Joined

variable {α : Type*} {sep : α} {a b x y : List α}

/-- `b` goes on after `a` with the separator. -/
def Extends (sep : α) (a b : List α) : Prop := ∃ r, b = a ++ sep :: r

/-- One of the two is the other up to a separator in it. -/
def Nested (sep : α) (a b : List α) : Prop := a = b ∨ Extends sep a b ∨ Extends sep b a

theorem Extends.mem (h : Extends sep a b) : sep ∈ b := by
  obtain ⟨r, rfl⟩ := h
  simp

/-- **The same text from two pairs**: they are equal, or the first part of the one goes on into the
second part of the other. -/
theorem join_eq_join_iff :
    a ++ sep :: x = b ++ sep :: y ↔
      (a = b ∧ x = y) ∨ (∃ r, b = a ++ sep :: r ∧ x = r ++ sep :: y) ∨
        ∃ r, a = b ++ sep :: r ∧ y = r ++ sep :: x := by
  constructor
  · intro h
    rcases List.append_eq_append_iff.mp h with ⟨r, hb, hx⟩ | ⟨r, ha, hy⟩
    · cases r with
      | nil =>
        rw [List.append_nil] at hb
        cases hx
        exact .inl ⟨hb.symm, rfl⟩
      | cons c r =>
        cases hx
        exact .inr (.inl ⟨r, hb, rfl⟩)
    · cases r with
      | nil =>
        rw [List.append_nil] at ha
        cases hy
        exact .inl ⟨ha, rfl⟩
      | cons c r =>
        cases hy
        exact .inr (.inr ⟨r, ha, rfl⟩)
  · rintro (⟨rfl, rfl⟩ | ⟨r, rfl, rfl⟩ | ⟨r, rfl, rfl⟩)
    · rfl
    · rw [List.append_assoc, List.cons_append]
    · rw [List.append_assoc, List.cons_append]

theorem join_eq_of_not_mem (ha : sep ∉ a) (h : a ++ sep :: x = b ++ sep :: y) :
    (a = b ∧ x = y) ∨ ∃ r, b = a ++ sep :: r ∧ x = r ++ sep :: y := by
  rcases join_eq_join_iff.mp h with heq | hext | ⟨r, hr, -⟩
  · exact .inl heq
  · exact .inr hext
  · exact absurd (Extends.mem ⟨r, hr⟩) ha

/-- **Without the separator in the first parts the pairs are the same.** -/
theorem join_inj (ha : sep ∉ a) (hb : sep ∉ b) (h : a ++ sep :: x = b ++ sep :: y) :
    a = b ∧ x = y := by
  rcases join_eq_of_not_mem ha h with heq | ⟨r, hr, -⟩
  · exact heq
  · exact absurd (Extends.mem ⟨r, hr⟩) hb

/-- **The front of the same text.** -/
theorem exists_join_iff : (∃ x y, a ++ sep :: x = b ++ sep :: y) ↔ Nested sep a b := by
  constructor
  · rintro ⟨x, y, h⟩
    rcases join_eq_join_iff.mp h with ⟨heq, -⟩ | ⟨r, hr, -⟩ | ⟨r, hr, -⟩
    · exact .inl heq
    · exact .inr (.inl ⟨r, hr⟩)
    · exact .inr (.inr ⟨r, hr⟩)
  · rintro (rfl | ⟨r, rfl⟩ | ⟨r, rfl⟩)
    · exact ⟨[], [], rfl⟩
    · exact ⟨r ++ [sep], [], by simp⟩
    · exact ⟨[], r ++ [sep], by simp⟩

theorem ne_append_cons (a r : List α) : a ≠ r ++ sep :: a := by
  intro h
  have hlen := congrArg List.length h
  simp only [List.length_append, List.length_cons] at hlen
  omega

end Joined
