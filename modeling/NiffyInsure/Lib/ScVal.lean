import Mathlib.Data.List.Basic

/-!
# Contract values and typed arguments

The values that a contract is called with, and how an entrypoint reads the types of its parameters
off them.  A struct is a map with exactly its field names, as symbols in ascending order; an
optional value is void or the value; a variant without fields is a vector of its name.  Where a
value is of another shape, there is no result, and the call traps.

* `asStruct_of_ne`: a map with other keys, or in another order, is not the struct.
* `asVec_eq_none`: a vector with an element that is not of the type is not of the type.
-/

universe u v

/-- A value, over a type of addresses. -/
inductive ScVal (A : Type u) where
  | void
  | bool (b : Bool)
  | u32 (n : UInt32)
  | u64 (n : UInt64)
  | i128 (n : BitVec 128)
  | string (text : List UInt8)
  | symbol (name : String)
  | bytes (bytes : List UInt8)
  | address (a : A)
  | vec (vals : List (ScVal A))
  | map (entries : List (ScVal A × ScVal A))

namespace ScVal

variable {A : Type u} {α : Type v}

def asBool : ScVal A → Option Bool
  | bool b => some b
  | _ => none

def asU32 : ScVal A → Option Nat
  | u32 n => some n.toNat
  | _ => none

def asU64 : ScVal A → Option Nat
  | u64 n => some n.toNat
  | _ => none

def asI128 : ScVal A → Option Int
  | i128 n => some n.toInt
  | _ => none

def asString : ScVal A → Option (List UInt8)
  | string text => some text
  | _ => none

/-- `BytesN<n>`. -/
def asBytes (n : Nat) : ScVal A → Option (Vector UInt8 n)
  | bytes bs => if h : bs.toArray.size = n then some ⟨bs.toArray, h⟩ else none
  | _ => none

def asAddress : ScVal A → Option A
  | address a => some a
  | _ => none

def asOption (read : ScVal A → Option α) : ScVal A → Option (Option α)
  | void => some none
  | val => (read val).map some

def asVec (read : ScVal A → Option α) : ScVal A → Option (List α)
  | vec vals => vals.mapM read
  | _ => none

/-- An enumeration whose variants have no fields. -/
def asEnum (variants : List (String × α)) : ScVal A → Option α
  | vec [symbol name] => variants.lookup name
  | _ => none

/-- The names of the fields of a struct, in the order in which the map has them. -/
structure Fields where
  names : List String
  ascending : names.Pairwise (· < ·)

/-- The key of an entry, if it is a symbol. -/
def fieldName (entry : ScVal A × ScVal A) : Option String :=
  match entry.1 with
  | symbol name => some name
  | _ => none

/-- The values of the fields of a struct. -/
def asStruct (fields : Fields) : ScVal A → Option (List (ScVal A))
  | map entries =>
    if entries.map fieldName = fields.names.map some then some (entries.map (·.2)) else none
  | _ => none

theorem asStruct_of_ne {fields : Fields} {entries : List (ScVal A × ScVal A)}
    (h : entries.map fieldName ≠ fields.names.map some) :
    asStruct fields (map entries) = none := if_neg h

theorem asVec_eq_none {read : ScVal A → Option α} {vals : List (ScVal A)} {val : ScVal A}
    (hmem : val ∈ vals) (hval : read val = none) : asVec read (vec vals) = none := by
  show vals.mapM read = none
  induction vals with
  | nil => cases hmem
  | cons head rest ih =>
    rw [List.mapM_cons]
    rcases List.mem_cons.mp hmem with rfl | hmem
    · rw [hval]
      rfl
    · rw [ih hmem]
      cases read head <;> rfl

end ScVal
