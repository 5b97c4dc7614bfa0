import Std.Data.HashMap
import WinFloor.Metadata.Database

/-!
Custom attributes. Two matter: the one that makes a method a native import, and the one that names
the platform it needs. An attribute is known by the name of the type that its constructor belongs
to.
-/
namespace WinFloor.Metadata

inductive Attribute
  | nativeImport (moduleName : String) (entryPoint : Option String)
  | platform (text : String)
  | other
  deriving DecidableEq, Repr

/-- The value of an attribute: its one string, and the entry point among its named arguments. -/
structure AttributeValue where
  fixed : Option String
  entryPoint : Option String
  deriving DecidableEq, Repr

namespace AttributeValue

def prolog : Nat := 1

def fieldTag : Nat := 0x53
def propertyTag : Nat := 0x54

/-- The types of named arguments that are understood. Enumerations are four octets wide. -/
def booleanTag : Nat := 0x02
def int32Tag : Nat := 0x08
def uint32Tag : Nat := 0x09
def stringTag : Nat := 0x0e
def enumTag : Nat := 0x55

/-- A named argument, its value where it is a string; `none` where it is of an unknown kind. -/
def namedArgument : Reader (Option (String × Option String)) := do
  let kind ← Reader.octet
  if kind ≠ fieldTag ∧ kind ≠ propertyTag then return none
  let type ← Reader.octet
  if type = enumTag then
    let _enumName ← Reader.string
  let name := (← Reader.string).getD ""
  if type = stringTag then
    return some (name, ← Reader.string)
  else if type = booleanTag then
    Reader.skip 1
    return some (name, none)
  else if type = int32Tag ∨ type = uint32Tag ∨ type = enumTag then
    Reader.skip 4
    return some (name, none)
  else return none

def entryPointName : String := "EntryPoint"

/-- The entry point that the next `count` arguments leave, after `found`: the last one of that name
counts, and reading stops where an argument is not understood. -/
def entryPointIn : (count : Nat) → (found : Option String) → Cursor → Option String
  | 0, found, _ => found
  | count + 1, found, c =>
    match namedArgument.run c with
    | .ok (some (name, value)) c =>
      entryPointIn count (if name = entryPointName then value else found) c
    | .ok none _ | .error _ _ => found

def reader : Reader AttributeValue := do
  let word ← Reader.word
  if word ≠ prolog then throw (.metadata (.attributeProlog word))
  let fixed ← Reader.string
  if (← get).remaining < 2 then return { fixed, entryPoint := none }
  let count ← Reader.word
  return { fixed, entryPoint := entryPointIn count none (← get) }

def read (blob : Octets) : Except Fault AttributeValue :=
  reader.value (.start blob)

end AttributeValue

namespace Database

def platformAttribute : String := "SupportedOSPlatformAttribute"
def importAttribute : String := "DllImportAttribute"

/-- The type that owns each method, by number. Where two claim one, the later has it. -/
def methodOwners (db : Database) : Std.HashMap Nat Nat :=
  (db.methodsByType.zipIdx 1).foldl
    (fun owners (methods, owner) => methods.foldl (fun owners m => owners.insert m owner) owners) ∅

def memberParent : Nat := 0

/-- The namespace and name of the type that a constructor belongs to. -/
def constructorType? (db : Database) (owners : Std.HashMap Nat Nat) (constructor : UInt32) :
    Option (String × String) := do
  match ← CodedIndex.customAttributeType.decode constructor with
  | (.methodDef, row) => db.typeName? .typeDef (← owners[row.toNat]?)
  | (.memberRef, row) =>
    let member ← db.tables.row? .memberRef row.toNat
    let (table, row) ← CodedIndex.memberRefParent.decode (member.get memberParent)
    db.typeName? table row.toNat
  | _ => none

def attributeValue (db : Database) (value : UInt32) : Except Fault AttributeValue := do
  AttributeValue.read (← db.blobs.get value.toNat)

/-- What an attribute says, given its constructor and value. One whose value cannot be read says
nothing. -/
def attributeOf (db : Database) (owners : Std.HashMap Nat Nat) (constructor value : UInt32) :
    Attribute :=
  match db.constructorType? owners constructor with
  | none => .other
  | some (_, name) =>
    if name = platformAttribute then
      match db.attributeValue value with
      | .ok v => .platform (v.fixed.getD "")
      | .error _ => .other
    else if name = importAttribute then
      match db.attributeValue value with
      | .ok v => .nativeImport (v.fixed.getD "") v.entryPoint
      | .error _ => .other
    else .other

end Database

end WinFloor.Metadata
