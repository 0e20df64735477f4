import Mathlib.Data.List.Basic
import Mathlib.Data.Set.Function

/-!
# Values of JavaScript

The values that rows of a database and JSON documents have, over the type of their strings.  An
object is built up from its properties, and an array is an object with its indices as keys.

* `map_eq_self`: a map that keeps the strings of a value keeps the value.
* `Renaming.exists_iff`: two namings of one set are renamings of each other exactly if they identify
  the same things.
-/

universe u v w

namespace Js

inductive Value (α : Type u) where
  | undefined
  | null
  | bool (b : Bool)
  | number (n : Int)
  | date (ms : Int)
  | string (s : α)
  | empty
  | property (key : α) (value : Value α) (rest : Value α)
  deriving DecidableEq

namespace Value

variable {α : Type u} {β : Type v} {γ : Type w}

def map (f : α → β) : Value α → Value β
  | undefined => undefined
  | null => null
  | bool b => bool b
  | number n => number n
  | date ms => date ms
  | string s => string (f s)
  | empty => empty
  | property key value rest => property (f key) (value.map f) (rest.map f)

/-- The strings in a value, its keys included. -/
def strings : Value α → List α
  | string s => [s]
  | property key value rest => key :: (value.strings ++ rest.strings)
  | _ => []

@[simp] theorem map_map (f : α → β) (g : β → γ) (v : Value α) :
    (v.map f).map g = v.map (g ∘ f) := by
  induction v with
  | property key value rest ihvalue ihrest => rw [map, map, map, ihvalue, ihrest, Function.comp]
  | _ => rfl

theorem strings_map (f : α → β) (v : Value α) : (v.map f).strings = v.strings.map f := by
  induction v with
  | property key value rest ihvalue ihrest =>
    rw [map, strings, strings, ihvalue, ihrest, List.map_cons, List.map_append]
  | _ => rfl

theorem map_eq_self {f : α → α} {v : Value α} (h : ∀ s ∈ v.strings, f s = s) : v.map f = v := by
  induction v with
  | string s => exact congrArg string (h s (List.mem_singleton.mpr rfl))
  | property key value rest ihvalue ihrest =>
    rw [strings, List.forall_mem_cons, List.forall_mem_append] at h
    rw [map, h.1, ihvalue h.2.1, ihrest h.2.2]
  | _ => rfl

/-- `!!value`, for a value whose strings are texts. -/
def truthy : Value String → Bool
  | undefined | null => false
  | bool b => b
  | number n => n ≠ 0
  | string s => s ≠ ""
  | date _ | empty | property _ _ _ => true

end Value

/-! ## Rows -/

/-- An object with the names of columns as keys. -/
abbrev Row (α : Type u) := List (String × Value α)

namespace Row

variable {α : Type u} {β : Type v}

/-- `row.name`. -/
def get (row : Row α) (name : String) : Value α := (row.lookup name).getD .undefined

def map (f : α → β) (row : Row α) : Row β := List.map (fun c => (c.1, c.2.map f)) row

/-- `{ ...row, ...other }`.  The order of the columns means nothing. -/
def spread (row other : Row α) : Row α :=
  List.filter (fun c => c.1 ∉ List.map Prod.fst other) row ++ other

theorem get_map (f : α → β) (row : Row α) (name : String) :
    (row.map f).get name = (row.get name).map f := by
  induction row with
  | nil => rfl
  | cons c row ih =>
    unfold get map at ih ⊢
    rw [List.map_cons, List.lookup_cons, List.lookup_cons]
    cases name == c.1 with
    | true => rfl
    | false => exact ih

/-- A column is one of the row, or it is not set. -/
theorem get_mem (row : Row α) (name : String) :
    row.get name = .undefined ∨ (name, row.get name) ∈ row := by
  induction row with
  | nil => exact .inl rfl
  | cons c row ih =>
    unfold get at ih ⊢
    rw [List.lookup_cons]
    cases hname : name == c.1 with
    | true =>
      obtain rfl := eq_of_beq hname
      exact .inr List.mem_cons_self
    | false => exact ih.imp id (List.mem_cons_of_mem _)

/-- What is spread last, wins. -/
theorem get_spread {row other : Row α} {name : String} (h : name ∈ List.map Prod.fst other) :
    (row.spread other).get name = other.get name := by
  have hnone : List.lookup name
      (List.filter (fun c => decide (c.1 ∉ List.map Prod.fst other)) row) = none := by
    rw [List.lookup_eq_none_iff]
    intro c hc
    have hnot := of_decide_eq_true (List.mem_filter.mp hc).2
    exact bne_iff_ne.mpr fun heq => hnot (heq ▸ h)
  unfold get spread
  rw [List.lookup_append, hnone, Option.none_or]

end Row

end Js

/-! ## Renamings -/

namespace Renaming

/-- **When two namings are renamings of each other.** -/
theorem exists_iff {κ : Type u} {α : Type v} [Nonempty α] {K : Set κ} {f g : κ → α} :
    (∃ rename : α → α, Set.InjOn rename (f '' K) ∧ ∀ k ∈ K, g k = rename (f k)) ↔
      ∀ k ∈ K, ∀ k' ∈ K, f k = f k' ↔ g k = g k' := by
  constructor
  · rintro ⟨rename, hinj, hrename⟩ k hk k' hk'
    rw [hrename k hk, hrename k' hk']
    exact ⟨congrArg rename, hinj ⟨k, hk, rfl⟩ ⟨k', hk', rfl⟩⟩
  · intro h
    classical
    let rename (a : α) : α :=
      if ha : ∃ k ∈ K, f k = a then g ha.choose else Classical.arbitrary α
    have hrename : ∀ k ∈ K, g k = rename (f k) := fun k hk => by
      have ha : ∃ k' ∈ K, f k' = f k := ⟨k, hk, rfl⟩
      rw [show rename (f k) = g ha.choose from dif_pos ha]
      exact (h k hk _ ha.choose_spec.1).mp ha.choose_spec.2.symm
    refine ⟨rename, ?_, hrename⟩
    rintro _ ⟨k, hk, rfl⟩ _ ⟨k', hk', rfl⟩ heq
    rw [← hrename k hk, ← hrename k' hk'] at heq
    exact (h k hk k' hk').mpr heq

end Renaming
