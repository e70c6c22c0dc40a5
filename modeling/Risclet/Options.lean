import Risclet.Table

/-! # Options of a compilation

The options say whether names must be declared before they are used, which subroutine names
stand for routines of the runtime library, and what the program is called in the listing.
-/
namespace Risclet

/-- The label at which a compiled program begins. -/
def entryLabel : String := "_start"

/-- The settings of one compilation. -/
structure Options where
  /-- Whether a name must be declared before it is read or assigned. -/
  strict : Bool := true
  /-- The library symbol that each intrinsic subroutine stands for. -/
  intrinsics : Table String := Table.ofList [("Output", "print_int")]
  /-- The name shown in the heading of the listing. -/
  programName : String := "prog.s"

namespace Options

/-- The symbol that a call of `name` branches to. -/
def resolve (o : Options) (name : String) : String :=
  (o.intrinsics.get? name).getD name

/-- The symbols that no variable may take: where the program begins, and the library's. -/
def reserved (o : Options) : List String :=
  entryLabel :: o.intrinsics.values

/-- The reserved symbols without repetition, in the order of their characters' code points. -/
def reservedSorted (o : Options) : List String :=
  o.reserved.eraseDups.mergeSort (fun a b => decide (a ≤ b))

end Options
end Risclet
