/-! # Tables in order of entry

A table gives values to names and keeps the names in the order in which they were first entered.
Setting a name that is there already changes its value and leaves its place.  Main statements: what
`set` does to the look-up of every name and to the list of names.
-/
namespace Risclet

/-- Values by name, in the order in which the names were first entered. -/
structure Table (α : Type) where
  entries : List (String × α)
deriving DecidableEq, Repr

namespace Table

variable {α β : Type}

/-- The table without names. -/
def empty : Table α := ⟨[]⟩

instance : EmptyCollection (Table α) := ⟨empty⟩
instance : Inhabited (Table α) := ⟨empty⟩

/-- The names, in order. -/
def keys (t : Table α) : List String :=
  t.entries.map Prod.fst

/-- The values, in the order of their names. -/
def values (t : Table α) : List α :=
  t.entries.map Prod.snd

/-- The value of a name. -/
def get? (t : Table α) (name : String) : Option α :=
  t.entries.lookup name

/-- Whether a name is in the table. -/
def contains (t : Table α) (name : String) : Bool :=
  (t.get? name).isSome

/-- Entries with the value of `name` set: changed in its place, or entered at the end. -/
def setEntry (name : String) (value : α) : List (String × α) → List (String × α)
  | [] => [(name, value)]
  | (key, old) :: rest =>
    if key = name then (key, value) :: rest else (key, old) :: setEntry name value rest

/-- Sets the value of a name. -/
def set (t : Table α) (name : String) (value : α) : Table α :=
  ⟨setEntry name value t.entries⟩

/-- The table of a list of pairs: a later value for a name replaces an earlier one. -/
def ofList (pairs : List (String × α)) : Table α :=
  pairs.foldl (fun t p => t.set p.1 p.2) empty

/-- Applies a function that can fail to every value, in order, and stops at the first failure. -/
def mapM {ε : Type} (f : α → Except ε β) (t : Table α) : Except ε (Table β) :=
  (go t.entries).map Table.mk
where
  /-- The entries with the function applied. -/
  go : List (String × α) → Except ε (List (String × β))
    | [] => .ok []
    | (name, value) :: rest => do
      let mapped ← f value
      let others ← go rest
      return (name, mapped) :: others

@[simp] theorem get?_empty (name : String) : (empty : Table α).get? name = none := rfl

theorem lookup_setEntry (entries : List (String × α)) (name key : String) (value : α) :
    (setEntry name value entries).lookup key =
      if key = name then some value else entries.lookup key := by
  induction entries with
  | nil =>
    by_cases h : key = name <;> simp [setEntry, h]
  | cons p rest ih =>
    obtain ⟨k, old⟩ := p
    rw [setEntry]
    by_cases hk : k = name
    · subst hk
      by_cases h : key = k
      · subst h; simp
      · have : (key == k) = false := by simpa using h
        simp [List.lookup_cons, this, h]
    · rw [if_neg hk]
      by_cases h : key = k
      · subst h
        simp [hk]
      · have : (key == k) = false := by simpa using h
        simp [List.lookup_cons, this, ih]

/-- **Setting changes one name.**  The name that is set has the new value, every other name the
value that it had. -/
theorem get?_set (t : Table α) (name key : String) (value : α) :
    (t.set name value).get? key = if key = name then some value else t.get? key :=
  lookup_setEntry t.entries name key value

theorem map_fst_setEntry (entries : List (String × α)) (name : String) (value : α) :
    (setEntry name value entries).map Prod.fst =
      if name ∈ entries.map Prod.fst then entries.map Prod.fst
      else entries.map Prod.fst ++ [name] := by
  induction entries with
  | nil => simp [setEntry]
  | cons p rest ih =>
    obtain ⟨k, old⟩ := p
    rw [setEntry]
    by_cases hk : k = name
    · simp [hk]
    · rw [if_neg hk, List.map_cons, ih]
      have : name ≠ k := fun h => hk h.symm
      by_cases hm : name ∈ rest.map Prod.fst <;> simp [hm, this]

/-- **Setting keeps the order.**  A name in the table keeps its place, a new one goes to the end. -/
theorem keys_set (t : Table α) (name : String) (value : α) :
    (t.set name value).keys = if name ∈ t.keys then t.keys else t.keys ++ [name] :=
  map_fst_setEntry t.entries name value

end Table
end Risclet
