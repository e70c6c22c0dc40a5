/-! # Types of variables

A variable is a 32-bit integer or a string.  Tables that were put together by hand may name other
types; these have no place in memory and are rejected where one is needed.
-/
namespace Risclet

/-- The declared type of a variable. -/
inductive DataType where
  | int32
  | string
  /-- A type without storage. -/
  | foreign (text : String)
deriving DecidableEq, Repr

namespace DataType

/-- The type's name. -/
def name : DataType → String
  | int32 => "Int32"
  | string => "String"
  | foreign text => text

/-- The type with a given name, if there is one. -/
def ofName? (name : String) : Option DataType :=
  if name = "Int32" then some int32 else if name = "String" then some string else none

theorem name_of_ofName? {s : String} {t : DataType} (h : ofName? s = some t) : t.name = s := by
  rw [ofName?] at h
  split at h
  · next hs => cases h; exact hs.symm
  · split at h
    · next hs => cases h; exact hs.symm
    · cases h

end DataType

/-- The least 32-bit integer. -/
def int32Min : Int := -2147483648

/-- The greatest 32-bit integer. -/
def int32Max : Int := 2147483647

/-- Whether an integer has a 32-bit form. -/
def IsInt32 (n : Int) : Prop :=
  int32Min ≤ n ∧ n ≤ int32Max

instance (n : Int) : Decidable (IsInt32 n) :=
  inferInstanceAs (Decidable (_ ∧ _))

end Risclet
