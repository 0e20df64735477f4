import Mathlib.Data.List.Infix
import Mathlib.Logic.Function.Basic

/-!
# Texts with marked names

A text in which the names that occur are marked.  What a program reads has no marks; a renaming of
the names changes them where they are marked.

* `infix_of_mem`: a name that is marked occurs in what is read.
* `rename_eq_self`: a renaming keeps a text without names.
* `rename_injective`: an injective renaming is injective on texts.
-/

universe u

namespace Marked

/-- A piece of a text. -/
inductive Piece (S : Type u) where
  | plain (s : String)
  | name (s : S)
  deriving DecidableEq

abbrev Text (S : Type u) := List (Piece S)

variable {S : Type u}

def Piece.rename (f : S → S) : Piece S → Piece S
  | plain s => plain s
  | name s => name (f s)

/-- The text with the names changed. -/
def rename (f : S → S) (t : Text S) : Text S := t.map (Piece.rename f)

section Read

variable (spell : S → String)

def Piece.read : Piece S → List Char
  | plain s => s.toList
  | name s => (spell s).toList

/-- The text without its marks. -/
def read (t : Text S) : String := String.ofList (t.flatMap (Piece.read spell))

end Read

variable {spell : S → String} {f : S → S} {t : Text S} {s : S}

theorem toList_read (t : Text S) : (read spell t).toList = t.flatMap (Piece.read spell) :=
  String.toList_ofList

theorem infix_of_mem (h : .name s ∈ t) : (spell s).toList <:+: (read spell t).toList := by
  obtain ⟨front, back, rfl⟩ := List.append_of_mem h
  rw [toList_read, List.flatMap_append, List.flatMap_cons]
  exact ⟨_, _, List.append_assoc _ _ _⟩

@[simp] theorem read_plain (s : String) : read spell [.plain s] = s := by
  rw [read, List.flatMap_singleton, Piece.read, String.ofList_toList]

@[simp] theorem rename_plain (s : String) : rename f [.plain s] = [.plain s] := rfl

theorem rename_eq_self (h : ∀ s, .name s ∉ t) : rename f t = t := by
  refine (List.map_congr_left fun p hp => ?_).trans (List.map_id t)
  cases p with
  | plain s => rfl
  | name s => exact absurd hp (h s)

theorem rename_injective (hf : Function.Injective f) : Function.Injective (rename (S := S) f) := by
  refine List.map_injective_iff.mpr fun p q h => ?_
  match p, q, h with
  | .plain s, .plain s', h => exact congrArg Piece.plain (Piece.plain.inj h)
  | .name s, .name s', h => exact congrArg Piece.name (hf (Piece.name.inj h))

/-- Names that are not empty stay so. -/
theorem read_rename_eq_empty_iff (hspell : ∀ s, spell s ≠ "") :
    read spell (rename f t) = "" ↔ read spell t = "" := by
  have hname : ∀ s, (spell s).toList ≠ [] := fun s h => hspell s (String.toList_eq_nil_iff.mp h)
  rw [← String.toList_eq_nil_iff, ← String.toList_eq_nil_iff, toList_read, toList_read, rename,
    List.flatMap_eq_nil_iff, List.flatMap_eq_nil_iff, List.forall_mem_map]
  refine forall₂_congr fun p _ => ?_
  cases p with
  | plain s => exact Iff.rfl
  | name s => exact iff_of_false (hname _) (hname _)

end Marked
