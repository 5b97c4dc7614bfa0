import WinFloor.Platform

/-!
Declarations of native functions.
-/
namespace WinFloor

/-- A native function: the module that has it, its name there, and what it needs. -/
structure Declaration where
  moduleName : String
  symbol : String
  requirement : Platform.Requirement
  deriving DecidableEq, Repr

def Declaration.build (d : Declaration) : Nat := d.requirement.build

end WinFloor
