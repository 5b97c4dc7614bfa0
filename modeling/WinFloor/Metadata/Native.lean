import WinFloor.Metadata.Attribute
import WinFloor.Declaration

/-!
The native functions that metadata declares, each with what it needs.
-/
namespace WinFloor.Metadata

open Platform

/-- The module and the name of a native function, the name empty where it is the method's own. -/
structure NativeImport where
  moduleName : String
  entry : String
  deriving DecidableEq, Repr

/-- The attributes of a method that say something, in row order. -/
abbrev AttributesByMethod := Std.HashMap Nat (Array Attribute)

/-- The native import that an import row gives each method. -/
abbrev ImportsByMethod := Std.HashMap Nat NativeImport

namespace Database

def attributeParent : Nat := 0
def attributeConstructor : Nat := 1
def attributeValueColumn : Nat := 2

/-- The method that an attribute row belongs to and what it says. -/
def methodAttribute? (db : Database) (owners : Std.HashMap Nat Nat) (row : Row) :
    Option (Nat × Attribute) :=
  match CodedIndex.hasCustomAttribute.decode (row.get attributeParent) with
  | some (.methodDef, m) =>
    match db.attributeOf owners (row.get attributeConstructor) (row.get attributeValueColumn) with
    | .other => none
    | a => some (m.toNat, a)
  | _ => none

def attributesByMethod (db : Database) : AttributesByMethod :=
  let owners := db.methodOwners
  (db.tables.rows .customAttribute).foldl (fun attributes (_, row) =>
    match db.methodAttribute? owners row with
    | some (m, a) => attributes.alter m fun known => some ((known.getD #[]).push a)
    | none => attributes) ∅

def importForwarded : Nat := 1
def importName : Nat := 2
def importScope : Nat := 3
def scopeName : Nat := 0

/-- The method that an import row belongs to and what it imports. -/
def methodImport? (db : Database) (row : Row) : Option (Nat × NativeImport) :=
  match CodedIndex.memberForwarded.decode (row.get importForwarded) with
  | some (.methodDef, m) =>
    let scope := db.tables.row? .moduleRef (row.get importScope).toNat
    some (m.toNat,
      { moduleName := (scope.map fun r => db.strings.get (r.get scopeName).toNat).getD ""
        entry := db.strings.get (row.get importName).toNat })
  | _ => none

/-- Of several import rows for one method the last counts. -/
def importsByMethod (db : Database) : ImportsByMethod :=
  (db.tables.rows .implMap).foldl (fun imports (_, row) =>
    match db.methodImport? row with
    | some (m, i) => imports.insert m i
    | none => imports) ∅

/-- The bit of a method's flags that makes its import row count. -/
def importFlag : Nat := 13

def methodFlags : Nat := 2
def methodName : Nat := 3

/-- The native import of a method: that of its import row if it is flagged, else that of the first
attribute which gives one. -/
def nativeImport? (flags : UInt32) (row : Option NativeImport) (attributes : List Attribute) :
    Option NativeImport :=
  match flags.toNat.testBit importFlag, row with
  | true, some i => some i
  | _, _ =>
    attributes.findSome? fun
      | .nativeImport moduleName entryPoint => some ⟨moduleName, entryPoint.getD ""⟩
      | _ => none

/-- The first of the highest requirements that the attributes name, none if all are zero. -/
def requirementOf (attributes : List Attribute) : Requirement :=
  attributes.foldl (fun best a =>
    match a with
    | .platform text =>
      let r := Requirement.ofPlatform text
      if best.build < r.build then r else best
    | _ => best) .none

/-- The declaration of a method, if it is a native function of a named module. -/
def declaration? (db : Database) (attributes : AttributesByMethod) (imports : ImportsByMethod)
    (method : Nat) : Option Declaration := do
  let row ← db.tables.row? .methodDef method
  let own := (attributes.getD method #[]).toList
  let i ← nativeImport? (row.get methodFlags) imports[method]? own
  if i.moduleName = "" then none
  else
    let name := db.strings.get (row.get methodName).toNat
    some { moduleName := i.moduleName
           symbol := if i.entry = "" then name else i.entry
           requirement := requirementOf own }

/-- The native functions in the order of types, and of methods in each. -/
def declarations (db : Database) : List Declaration :=
  let attributes := db.attributesByMethod
  let imports := db.importsByMethod
  db.methodsByType.flatMap fun methods => methods.filterMap (db.declaration? attributes imports)

end Database

end WinFloor.Metadata
