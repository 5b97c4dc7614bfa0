import WinFloor.Proofs.Metadata.Content
import WinFloor.Proofs.Metadata.Heaps
import WinFloor.Proofs.Metadata.Joins
import WinFloor.Proofs.Metadata.RootStreams
import WinFloor.Metadata.Wrapper

/-!
How content is written: the tables with their references, which are those of the standard, the
heaps, and the streams behind a root. A `Layout` chooses what the content leaves open. What is read
from its octets are its tables and its heaps again (`read_octets`).
-/
namespace WinFloor.Metadata

open Standard.Reference (customAttributeType hasCustomAttribute memberForwarded memberRefParent)

/-- The type that a member belongs to: one that is referred to by name, or one defined here. -/
inductive MemberParent
  | reference (namespaceName name : String)
  | definition (type : Nat)
  deriving DecidableEq, Repr

def Remark.octets : Remark → List UInt8
  | nativeImport moduleName entryPoint => AttributeValue.octets moduleName entryPoint
  | platform text => AttributeValue.octets text none

namespace MethodAttribute

def parent? (a : MethodAttribute) : Option MemberParent :=
  match a.constructor with
  | .reference namespaceName => some (.reference namespaceName a.remark.typeName)
  | .definition type => some (.definition type)
  | .method .. => none

/-- The namespace and name of the type that is referred to. -/
def reference? (a : MethodAttribute) : Option (String × String) :=
  match a.constructor with
  | .reference namespaceName => some (namespaceName, a.remark.typeName)
  | _ => none

end MethodAttribute

/-- The number of the first method of each type, that of the first type being `first`. -/
def starts : (first : Nat) → List DefinedType → List Nat
  | _, [] => []
  | first, t :: ts => first :: starts (first + t.methods.length) ts

namespace Content

variable (c : Content)

def imports : List NativeImport := c.methods.flatMap (·.mapped?.toList)
def parents : List MemberParent := c.attributes.filterMap MethodAttribute.parent?
def references : List (String × String) := c.attributes.filterMap MethodAttribute.reference?
def modules : List String := c.imports.map NativeImport.moduleName

/-- What the string heap holds. -/
def strings : List String :=
  c.types.flatMap (fun t => [t.namespaceName, t.name]) ++ c.methods.map Method.name ++
    c.imports.flatMap (fun i => [i.moduleName, i.entry]) ++
    c.references.flatMap fun r => [r.1, r.2]

/-- What the blob heap holds. -/
def values : List (List UInt8) := c.attributes.map (·.remark.octets)

/-- The number of the method at an index of a type. -/
def number (type index : Nat) : Nat := (starts 1 c.types)[type]?.getD 0 + index

/-- A constructor belongs to a type of the given name. -/
def names : Constructor → String → Bool
  | .reference _, _ => true
  | .definition type, name => c.types[type]?.any (·.name = name)
  | .method type index, name =>
    c.types[type]?.any fun t => t.name = name && index < t.methods.length

/-- Attributes are told by the types that their constructors name, and no string of the heap has a
zero in it, which would end it. -/
structure WellFormed : Prop where
  named : ∀ a ∈ c.attributes, c.names a.constructor a.remark.typeName = true
  free : ∀ s ∈ c.strings, Char.ofNat 0 ∉ s.toList

end Content

/-- A stream of the image; besides the three that are read there may be others. -/
inductive StreamPart
  | tables (uncompressed : Bool)
  | strings
  | blobs
  | other (name : String) (octets : List UInt8)
  deriving DecidableEq, Repr

namespace StreamPart

def name : StreamPart → String
  | tables false => "#~"
  | tables true => "#-"
  | strings => "#Strings"
  | blobs => "#Blob"
  | other name _ => name

def isTables : StreamPart → Bool
  | tables _ => true
  | _ => false

/-- Another stream does not have the name of one that is read. -/
def Apart : StreamPart → Prop
  | other name _ => ¬ isTableStream name ∧ name ≠ "#Strings" ∧ name ≠ "#Blob"
  | _ => True

end StreamPart

/-- What is chosen where content is written: how wide indexes into the heaps are, how the heaps
hold their items, in which order the referred rows come and what others there are, the columns that
say nothing of use, the tables that do not, and the streams. -/
structure Layout (c : Content) where
  heapFlags : UInt8
  strings : Heap zeroEnded c.strings
  blobs : Heap sizedOctets c.values
  references : List (String × String)
  parents : List MemberParent
  modules : List String
  fill : Table → Nat → Nat → Nat
  others : Table → Option (List (List Nat))
  head : HeadFiller
  tablePadding : List UInt8
  root : RootFiller
  version : List UInt8
  parts : List StreamPart
  referenced : c.references ⊆ references
  parented : c.parents ⊆ parents
  named : c.modules ⊆ modules
  complete : parts.any StreamPart.isTables ∧ .strings ∈ parts ∧ .blobs ∈ parts
  apart : ∀ p ∈ parts, p.Apart

/-- A table that has no rows is left out. -/
def stored (rows : List (List Nat)) : Option (List (List Nat)) :=
  if rows.isEmpty then none else some rows

namespace Layout

variable {c : Content} (l : Layout c)

def typeRow (i : Nat) (t : DefinedType × Nat) : List Nat :=
  [l.fill .typeDef i 0, l.strings.place t.1.name, l.strings.place t.1.namespaceName,
   l.fill .typeDef i 3, l.fill .typeDef i 4, t.2]

def methodRow (i : Nat) (m : Method) : List Nat :=
  [l.fill .methodDef i 0, l.fill .methodDef i 1, m.flags.toNat, l.strings.place m.name,
   l.fill .methodDef i 4, l.fill .methodDef i 5]

def referenceRow (i : Nat) (r : String × String) : List Nat :=
  [l.fill .typeRef i 0, l.strings.place r.2, l.strings.place r.1]

def parentCell : MemberParent → Nat
  | .reference namespaceName name =>
    memberRefParent.cell .typeRef (l.references.idxOf (namespaceName, name) + 1)
  | .definition type => memberRefParent.cell .typeDef (type + 1)

def memberRow (i : Nat) (p : MemberParent) : List Nat :=
  [l.parentCell p, l.fill .memberRef i 1, l.fill .memberRef i 2]

def moduleRow (_ : Nat) (name : String) : List Nat := [l.strings.place name]

def constructorCell (a : MethodAttribute) : Nat :=
  match a.constructor with
  | .reference namespaceName =>
    customAttributeType.cell .memberRef
      (l.parents.idxOf (.reference namespaceName a.remark.typeName) + 1)
  | .definition type =>
    customAttributeType.cell .memberRef (l.parents.idxOf (.definition type) + 1)
  | .method type index => customAttributeType.cell .methodDef (c.number type index)

def attributeRow (_ : Nat) (a : Nat × MethodAttribute) : List Nat :=
  [hasCustomAttribute.cell .methodDef a.1, l.constructorCell a.2,
   l.blobs.place a.2.remark.octets]

def importRow (n : Nat) (i : Nat × NativeImport) : List Nat :=
  [l.fill .implMap n 0, memberForwarded.cell .methodDef i.1,
   l.strings.place i.2.entry, l.modules.idxOf i.2.moduleName + 1]

/-- The tables. Methods are listed directly, without a table of references to them. -/
def tables : TableSet where
  heapFlags := l.heapFlags
  rows?
    | .typeDef => stored ((c.types.zip (starts 1 c.types)).mapIdx l.typeRow)
    | .methodDef => stored (c.methods.mapIdx l.methodRow)
    | .typeRef => stored (l.references.mapIdx l.referenceRow)
    | .memberRef => stored (l.parents.mapIdx l.memberRow)
    | .moduleRef => stored (l.modules.mapIdx l.moduleRow)
    | .customAttribute =>
      stored ((numbered Method.attributes 1 c.methods).mapIdx l.attributeRow)
    | .implMap => stored ((numbered (·.mapped?.toList) 1 c.methods).mapIdx l.importRow)
    | .methodPtr => none
    | t => l.others t

def tableOctets : List UInt8 := l.tables.octets l.head ++ l.tablePadding

def partOctets : StreamPart → List UInt8
  | .tables _ => l.tableOctets
  | .strings => l.strings.octets
  | .blobs => l.blobs.octets
  | .other _ octets => octets

def streams : List (String × List UInt8) := l.parts.map fun p => (p.name, l.partOctets p)

/-- The image. -/
def octets : List UInt8 := streamOctets l.root l.version l.streams

/-- The fields of the format have room for the content. -/
structure Fits : Prop where
  tables : l.tables.Fits
  values : ∀ bs ∈ c.values, bs.length < compressedBound
  headers : ∀ h ∈ headersFrom (streamStart l.root l.version l.streams) l.streams, h.Fits
  parts : l.parts.length < 0x10000
  version : l.version.length < 0x100000000

theorem carries {named : String → Prop} {bs : List UInt8} (one : ∃ p ∈ l.parts, named p.name)
    (all : ∀ p : StreamPart, p.Apart → named p.name → l.partOctets p = bs) :
    Carries l.streams named bs := by
  constructor
  · obtain ⟨p, listed, name⟩ := one
    exact ⟨_, List.mem_map_of_mem listed, name⟩
  · intro s listed name
    obtain ⟨p, member, rfl⟩ := List.mem_map.mp listed
    exact all p (l.apart p member) name

theorem carries_tables : Carries l.streams isTableStream l.tableOctets := by
  apply l.carries
  · obtain ⟨p, listed, kind⟩ := List.any_eq_true.mp l.complete.1
    refine ⟨p, listed, ?_⟩
    cases p with
    | tables uncompressed => cases uncompressed <;> decide
    | strings | blobs | other => cases kind
  · intro p apart name
    cases p with
    | tables => rfl
    | strings | blobs => exact absurd name (by decide)
    | other => exact absurd name apart.1

theorem carries_strings : Carries l.streams (· = "#Strings") l.strings.octets := by
  apply l.carries
  · exact ⟨.strings, l.complete.2.1, rfl⟩
  · intro p apart name
    cases p with
    | strings => rfl
    | tables uncompressed => cases uncompressed <;> exact absurd name (by decide)
    | blobs => exact absurd name (by decide)
    | other => exact absurd name apart.2.1

theorem carries_blobs : Carries l.streams (· = "#Blob") l.blobs.octets := by
  apply l.carries
  · exact ⟨.blobs, l.complete.2.2, rfl⟩
  · intro p apart name
    cases p with
    | blobs => rfl
    | tables uncompressed => cases uncompressed <;> exact absurd name (by decide)
    | strings => exact absurd name (by decide)
    | other => exact absurd name apart.2.2

end Layout

/-- A database has the tables and the heaps of a layout. -/
structure Database.Holds {c : Content} (db : Database) (l : Layout c) : Prop where
  tables : db.tables.Gives l.tables
  strings : db.strings.data.toList = l.strings.octets
  blobs : db.blobs.data.toList = l.blobs.octets

namespace Layout

variable {c : Content} {l : Layout c}

theorem read_octets (fits : l.Fits) :
    ∃ db, Database.read l.octets.toArray = .ok db ∧ db.Holds l := by
  obtain ⟨tables, accepted, gives⟩ := l.tables.read_octets fits.tables l.head l.tablePadding
  rw [← tableOctets] at accepted
  have few : l.streams.length < 0x10000 := by
    rw [streams, List.length_map]
    exact fits.parts
  have root := read_streams l.carries_tables l.carries_strings l.carries_blobs fits.version few
    fits.headers
  rw [← octets] at root
  refine ⟨⟨textBeforeZero l.version.toArray, tables, ⟨l.strings.octets.toArray⟩,
    ⟨l.blobs.octets.toArray⟩⟩, ?_, gives, rfl, rfl⟩
  rw [Database.read, Database.readParts, root]
  simp only [bind, Except.bind, accepted]
  rfl

/-- The image is taken for bare metadata. -/
theorem locate_octets (l : Layout c) : locate l.octets.toArray = .ok l.octets.toArray := by
  have signed : Octets.startsWith l.octets.toArray signature = true := by
    apply startsWith_of_toList
    rw [octets, streamOctets, rootOctets, RootFiller.preamble]
    simp only [List.append_assoc]
    rfl
  rw [locate, if_pos signed]

end Layout

end WinFloor.Metadata
