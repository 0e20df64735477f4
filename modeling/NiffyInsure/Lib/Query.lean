import Mathlib.Data.List.Infix

/-!
# Filters of queries

A filter is an object whose entries are conjoined: conditions on columns, conditions on related
rows, and lists of filters under `AND`, `OR` and `NOT`.  As in SQL a condition on a column that is
null holds of no row, and neither does its negation: `none` is the value that is unknown.  A row is
selected where the filter is true.

* `matches_iff`: the entries of a filter are conjoined.
* `matches_spread`: of two objects that are spread into one, the first keeps the entries whose keys
  the second has not.
-/

universe u

namespace Query

/-- What a column holds. -/
inductive Value where
  | null
  | bool (b : Bool)
  | int (n : Int)
  | text (s : String)
  deriving DecidableEq

/-- A condition on a column. -/
inductive Test where
  | equals (v : Value)
  | isIn (vs : List Value)
  | notIn (vs : List Value)
  | lt (v : Value)
  | lte (v : Value)
  | gt (v : Value)
  | gte (v : Value)
  | contains (s : String)
  | startsWith (s : String)
  | endsWith (s : String)
  | not (tests : List Test)

inductive Quantifier where
  | some
  | every
  | none
  deriving DecidableEq

/-- An entry of a filter. -/
inductive Entry where
  | AND (filters : List (List Entry))
  | OR (filters : List (List Entry))
  | NOT (filters : List (List Entry))
  | column (name : String) (tests : List Test)
  /-- `is` (or `isNot`) for a relation to at most one row; `none` stands for `null`. -/
  | one (name : String) (isNot : Bool) (filter : Option (List Entry))
  | many (name : String) (quantifier : Quantifier) (filter : List Entry)
  /-- A key whose value is `undefined`. -/
  | unset (name : String)

abbrev Filter := List Entry

def Entry.key : Entry → String
  | .AND _ => "AND"
  | .OR _ => "OR"
  | .NOT _ => "NOT"
  | .column name _ | .one name _ _ | .many name _ _ | .unset name => name

def Filter.keys (w : Filter) : List String := w.map Entry.key

/-- The object `{ ...a, ...b }`.  The order of the entries means nothing. -/
def spread (a b : Filter) : Filter := a.filter (·.key ∉ b.keys) ++ b

/-- The rows of all tables, and how they are related. -/
structure Data (ρ : Type u) where
  column : ρ → String → Value
  toOne : ρ → String → Option ρ
  toMany : ρ → String → List ρ

/-! ## Three values -/

def not3 : Option Bool → Option Bool := Option.map (! ·)

def and3 : Option Bool → Option Bool → Option Bool
  | some false, _ | _, some false => some false
  | some true, some true => some true
  | _, _ => none

def or3 (a b : Option Bool) : Option Bool := not3 (and3 (not3 a) (not3 b))

@[simp] theorem and3_eq_true {a b : Option Bool} :
    and3 a b = some true ↔ a = some true ∧ b = some true := by
  rcases a with _ | _ | _ <;> rcases b with _ | _ | _ <;> simp [and3]

/-! ## What a filter selects -/

/-- How two values that are not null, and of one type, compare. -/
def compareValues : Value → Value → Option Ordering
  | .int m, .int n => some (compare m n)
  | .text s, .text t => some (compare s t)
  | .bool b, .bool c => some (compare b c)
  | _, _ => none

/-- `null` is only equal to `null`, as an object has it: `IS NULL`. -/
def equals (v w : Value) : Option Bool :=
  if w = .null then some (v = .null)
  else if v = .null then none
  else some (v = w)

/-- A search in a text. -/
def search (p : List Char → List Char → Bool) (s : String) : Value → Option Bool
  | .null => none
  | .text t => some (p s.toList t.toList)
  | _ => some false

mutual

def Test.eval (v : Value) : Test → Option Bool
  | .equals w => equals v w
  | .isIn vs => if v = .null then none else some (v ∈ vs)
  | .notIn vs => if v = .null then none else some (v ∉ vs)
  | .lt w => (compareValues v w).map (· = .lt)
  | .lte w => (compareValues v w).map (· ≠ .gt)
  | .gt w => (compareValues v w).map (· = .gt)
  | .gte w => (compareValues v w).map (· ≠ .lt)
  | .contains s => search (fun part t => t.tails.any part.isPrefixOf) s v
  | .startsWith s => search List.isPrefixOf s v
  | .endsWith s => search List.isSuffixOf s v
  | .not tests => not3 (evalTests v tests)

def evalTests (v : Value) : List Test → Option Bool
  | [] => some true
  | t :: tests => and3 (t.eval v) (evalTests v tests)

end

variable {ρ : Type u} (D : Data ρ)

mutual

def Entry.eval (r : ρ) : Entry → Option Bool
  | .AND filters => evalAll r filters
  | .OR filters => evalAny r filters
  | .NOT filters => evalNone r filters
  | .column name tests => evalTests (D.column r name) tests
  | .one name isNot none => some ((D.toOne r name).isNone != isNot)
  | .one name isNot (some w) =>
    some (((D.toOne r name).any fun x => evalFilter x w = some true) != isNot)
  | .many name .some w => some ((D.toMany r name).any fun x => evalFilter x w = some true)
  | .many name .every w => some ((D.toMany r name).all fun x => evalFilter x w ≠ some false)
  | .many name .none w => some ((D.toMany r name).all fun x => evalFilter x w ≠ some true)
  | .unset _ => some true

def evalFilter (r : ρ) : List Entry → Option Bool
  | [] => some true
  | e :: w => and3 (e.eval r) (evalFilter r w)

def evalAll (r : ρ) : List (List Entry) → Option Bool
  | [] => some true
  | w :: ws => and3 (evalFilter r w) (evalAll r ws)

def evalAny (r : ρ) : List (List Entry) → Option Bool
  | [] => some false
  | w :: ws => or3 (evalFilter r w) (evalAny r ws)

def evalNone (r : ρ) : List (List Entry) → Option Bool
  | [] => some true
  | w :: ws => and3 (not3 (evalFilter r w)) (evalNone r ws)

end

/-- The row is selected. -/
def Matches (r : ρ) (w : Filter) : Prop := evalFilter D r w = some true

instance (r : ρ) (w : Filter) : Decidable (Matches D r w) :=
  inferInstanceAs (Decidable (_ = _))

variable {D} {r : ρ}

/-- **The entries are conjoined.** -/
theorem matches_iff {w : Filter} : Matches D r w ↔ ∀ e ∈ w, e.eval D r = some true := by
  induction w with
  | nil => simp [Matches, evalFilter]
  | cons e w ih =>
    rw [Matches, evalFilter, and3_eq_true, List.forall_mem_cons, ← ih]
    rfl

/-- What is left of a spread object: the entries whose keys are not set again. -/
theorem forall_mem_spread {p : Entry → Prop} {a b : Filter} :
    (∀ e ∈ spread a b, p e) ↔ (∀ e ∈ a, e.key ∉ b.keys → p e) ∧ ∀ e ∈ b, p e := by
  rw [spread, List.forall_mem_append]
  simp only [List.mem_filter, decide_eq_true_eq, and_imp]

/-- **What a spread object selects.** -/
theorem matches_spread {a b : Filter} :
    Matches D r (spread a b) ↔
      (∀ e ∈ a, e.key ∉ b.keys → e.eval D r = some true) ∧ Matches D r b := by
  rw [matches_iff, forall_mem_spread, matches_iff]

theorem equals_eq_true {v w : Value} : equals v w = some true ↔ v = w := by
  unfold equals
  split
  · rename_i hw
    rw [Option.some_inj, decide_eq_true_eq, hw]
  · rename_i hw
    split
    · rename_i hv
      exact iff_of_false nofun fun h => hw (h ▸ hv)
    · rw [Option.some_inj, decide_eq_true_eq]

theorem eval_column_equals {name : String} {v : Value} :
    (Entry.column name [.equals v]).eval D r = some true ↔ D.column r name = v := by
  rw [Entry.eval, evalTests, evalTests, and3_eq_true, Test.eval, equals_eq_true]
  exact and_iff_left rfl

theorem eval_one {name : String} {w : Filter} :
    (Entry.one name false (some w)).eval D r = some true ↔
      ∃ x, D.toOne r name = some x ∧ Matches D x w := by
  rw [Entry.eval, Option.some_inj, Bool.bne_false, Option.any_eq_true]
  simp only [decide_eq_true_eq, Matches]

end Query
