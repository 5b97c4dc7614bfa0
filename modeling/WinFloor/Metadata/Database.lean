import WinFloor.Metadata.Heap
import WinFloor.Metadata.Root
import WinFloor.Metadata.Stream

/-!
Metadata as a whole: the tables and the heaps they refer to, the methods of each type, and the
names of types.
-/
namespace WinFloor.Metadata

structure Database where
  version : String
  tables : Tables
  strings : StringHeap
  blobs : BlobHeap

namespace Database

def readParts (d : Octets) : Except Fault Database := do
  let root ← Root.read d
  let tables ← Tables.read root.tables
  return { version := root.version, tables, strings := ⟨root.strings⟩, blobs := ⟨root.blobs⟩ }

/-- A read past the end is a defect of the metadata. -/
def asDefect : Fault → Fault
  | .outOfBounds offset size => .metadata (.readPastEnd offset size)
  | f => f

/-- Reads metadata from its root on. -/
def read (d : Octets) : Except Fault Database :=
  (readParts d).mapError asDefect

/-- The columns used, by table. -/
def typeName : Nat := 1
def typeNamespace : Nat := 2
def typeMethodList : Nat := 5

/-- How many places the list of methods has that types own parts of. -/
def methodListSize (db : Database) : Nat :=
  match db.tables.rowCount .methodPtr with
  | 0 => db.tables.rowCount .methodDef
  | size => size

/-- The methods at the places from `first` up to `stop`. -/
def methodsBetween (db : Database) (first stop : Nat) : List Nat :=
  let first := max first 1
  ((List.range' first (stop - first)).map (db.tables.indirect .methodPtr)).filter (· ≠ 0)

/-- The methods of each type, in the order of types: from the place where its part of the list
starts to where the next type's part does, or the list ends. -/
def methodsByType (db : Database) : List (List Nat) :=
  let starts := (db.tables.rows .typeDef).map fun (_, row) => (row.get typeMethodList).toNat
  let stop := db.methodListSize + 1
  let stops := (starts.drop 1).map (min · stop) ++ [stop]
  starts.zipWith db.methodsBetween stops

/-- The namespace and name of a type; only definitions and references have one. -/
def typeName? (db : Database) (table : Table) (row : Nat) : Option (String × String) :=
  if table = .typeDef ∨ table = .typeRef then
    (db.tables.row? table row).map fun r =>
      (db.strings.get (r.get typeNamespace).toNat, db.strings.get (r.get typeName).toNat)
  else none

end Database

end WinFloor.Metadata
