import Risclet.Item
import Risclet.Node

/-! # What occurs in a tree

The operators of a tree and the names that are read in it, wherever they stand; the names that
statements use; those that they declare, and what they are first declared with; statements that
declare integers only (`IntegersOnly`), or leave string variables alone (`SpareStrings`); and the
tree without its positions (`erase`).
-/
namespace Risclet

/-- The variables that an item reads. -/
def Item.names : Item → List String
  | ident name => [name]
  | _ => []

namespace Node

mutual
/-- Every operator in a tree. -/
def operators : Node → List Operator
  | .binary op left right _ => op :: (operators left ++ operators right)
  | .decl _ _ value _ | .assign _ value _ | .expr value _ => operators value
  | .call _ nodes _ | .program nodes => operatorsAll nodes
  | _ => []

/-- Every operator in a list of trees. -/
def operatorsAll : List Node → List Operator
  | [] => []
  | node :: nodes => operators node ++ operatorsAll nodes
end

mutual
/-- Every name that is read in a tree. -/
def names : Node → List String
  | .ident name _ => [name]
  | .binary _ left right _ => names left ++ names right
  | .decl _ _ value _ | .assign _ value _ | .expr value _ => names value
  | .call _ nodes _ | .program nodes => namesAll nodes
  | _ => []

/-- Every name that is read in a list of trees. -/
def namesAll : List Node → List String
  | [] => []
  | node :: nodes => names node ++ namesAll nodes
end

/-- The names that a statement reads or assigns to. -/
def uses : Node → List String
  | .assign name value _ => name :: names value
  | node => names node

/-- The type that a name is first declared with. -/
def firstType? (name : String) : List Node → Option String
  | [] => none
  | .decl key typeName _ _ :: nodes => if key = name then some typeName else firstType? name nodes
  | _ :: nodes => firstType? name nodes

/-- The name that a statement declares. -/
def declaredName? : Node → Option String
  | .decl name _ _ _ => some name
  | _ => none

/-- The names that statements declare, each once, in the order of their first declarations. -/
def declaredNames (nodes : List Node) : List String :=
  (nodes.filterMap declaredName?).eraseDups

/-- The type and the initialiser with which a statement declares a name. -/
def declaration? (name : String) : Node → Option (String × Node)
  | .decl key typeName value _ => if key = name then some (typeName, value) else none
  | _ => none

/-- The type and the initialiser with which a name is first declared. -/
def firstDeclaration? (name : String) (nodes : List Node) : Option (String × Node) :=
  nodes.findSome? (declaration? name)

theorem declaration?_eq_none {name : String} {node : Node} :
    node.declaration? name = none ↔ node.declaredName? ≠ some name := by
  cases node <;> simp [declaration?, declaredName?]

theorem firstType?_eq_map (name : String) (nodes : List Node) :
    firstType? name nodes = (firstDeclaration? name nodes).map Prod.fst := by
  induction nodes with
  | nil => rfl
  | cons node nodes ih =>
    cases node with
    | decl key typeName value pos =>
      rw [firstType?, firstDeclaration?, List.findSome?_cons, declaration?]
      by_cases hk : key = name
      · rw [if_pos hk, if_pos hk]; rfl
      · rw [if_neg hk, if_neg hk]; exact ih
    | _ => exact ih

theorem mem_of_firstDeclaration? {name typeName : String} {value : Node} {nodes : List Node}
    (h : firstDeclaration? name nodes = some (typeName, value)) :
    ∃ pos, .decl name typeName value pos ∈ nodes := by
  obtain ⟨node, hmem, hd⟩ := List.exists_of_findSome?_eq_some h
  cases node with
  | decl key _ _ pos =>
    by_cases hk : key = name
    · subst hk
      rw [declaration?, if_pos rfl] at hd
      cases hd
      exact ⟨pos, hmem⟩
    · rw [declaration?, if_neg hk] at hd
      cases hd
  | _ => cases hd

/-- The names that are declared are those that have a first declaration. -/
theorem firstDeclaration?_eq_none {name : String} {nodes : List Node} :
    firstDeclaration? name nodes = none ↔ name ∉ declaredNames nodes := by
  simp only [firstDeclaration?, List.findSome?_eq_none_iff, declaration?_eq_none, declaredNames,
    List.mem_eraseDups, List.mem_filterMap, not_exists, not_and, ne_eq]

/-- The type that a statement declares a name with. -/
def declaredType? : Node → Option String
  | .decl _ typeName _ _ => some typeName
  | _ => none

/-- All declarations are of integers. -/
def IntegersOnly (nodes : List Node) : Prop :=
  ∀ node ∈ nodes, ∀ typeName ∈ node.declaredType?, typeName = "Int32"

instance (nodes : List Node) : Decidable (IntegersOnly nodes) :=
  inferInstanceAs (Decidable (∀ node ∈ nodes, ∀ typeName ∈ node.declaredType?, typeName = "Int32"))

/-- A statement that does no more with a name than declare it, with a string or without a value. -/
def Spares (name : String) : Node → Prop
  | .decl key _ value _ =>
    name ∉ names value ∧ (key = name → value = .absent ∨ ∃ text pos, value = .str text pos)
  | .assign key value _ => key ≠ name ∧ name ∉ names value
  | node => name ∉ names node

theorem Spares.not_mem_names {name : String} {node : Node} (h : node.Spares name) :
    name ∉ node.names := by
  cases node with
  | decl => rw [names]; exact h.1
  | assign => rw [names]; exact h.2
  | _ => exact h

/-- Statements that do no more with a variable first declared as a string than declare it. -/
def SpareStrings (nodes : List Node) : Prop :=
  ∀ name, firstType? name nodes = some "String" → ∀ node ∈ nodes, node.Spares name

mutual
/-- A tree without its positions. -/
def erase : Node → Node
  | .int value _ => .int value Pos.unknown
  | .str value _ => .str value Pos.unknown
  | .ident name _ => .ident name Pos.unknown
  | .binary op left right _ => .binary op (erase left) (erase right) Pos.unknown
  | .decl name typeName value _ => .decl name typeName (erase value) Pos.unknown
  | .assign name value _ => .assign name (erase value) Pos.unknown
  | .call name args _ => .call name (eraseAll args) Pos.unknown
  | .expr value _ => .expr (erase value) Pos.unknown
  | .program statements => .program (eraseAll statements)
  | .foreign text => .foreign text
  | .absent => .absent

/-- Trees without their positions. -/
def eraseAll : List Node → List Node
  | [] => []
  | node :: nodes => erase node :: eraseAll nodes
end

end Node
end Risclet
