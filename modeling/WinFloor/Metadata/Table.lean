/-!
The tables of ECMA-335 metadata and their columns.
-/
namespace WinFloor.Metadata

inductive Table
  | module
  | typeRef
  | typeDef
  | fieldPtr
  | field
  | methodPtr
  | methodDef
  | paramPtr
  | param
  | interfaceImpl
  | memberRef
  | constant
  | customAttribute
  | fieldMarshal
  | declSecurity
  | classLayout
  | fieldLayout
  | standAloneSig
  | eventMap
  | eventPtr
  | event
  | propertyMap
  | propertyPtr
  | property
  | methodSemantics
  | methodImpl
  | moduleRef
  | typeSpec
  | implMap
  | fieldRva
  | encLog
  | encMap
  | assembly
  | assemblyProcessor
  | assemblyOs
  | assemblyRef
  | assemblyRefProcessor
  | assemblyRefOs
  | file
  | exportedType
  | manifestResource
  | nestedClass
  | genericParam
  | methodSpec
  | genericParamConstraint
  deriving DecidableEq, Repr

namespace Table

/-- All tables, each at the place of its number. -/
def all : List Table :=
  [module, typeRef, typeDef, fieldPtr, field, methodPtr, methodDef, paramPtr, param, interfaceImpl,
   memberRef, constant, customAttribute, fieldMarshal, declSecurity, classLayout, fieldLayout,
   standAloneSig, eventMap, eventPtr, event, propertyMap, propertyPtr, property, methodSemantics,
   methodImpl, moduleRef, typeSpec, implMap, fieldRva, encLog, encMap, assembly, assemblyProcessor,
   assemblyOs, assemblyRef, assemblyRefProcessor, assemblyRefOs, file, exportedType,
   manifestResource, nestedClass, genericParam, methodSpec, genericParamConstraint]

def ofId? (id : Nat) : Option Table := all[id]?

def id (t : Table) : Nat := all.idxOf t

theorem ofId?_id (t : Table) : ofId? t.id = some t := by
  cases t <;> decide

theorem id_lt (t : Table) : t.id < all.length := by
  cases t <;> decide

end Table

/-- References that can point into several tables. The low bits of the value choose one. -/
inductive CodedIndex
  | typeDefOrRef
  | hasConstant
  | hasCustomAttribute
  | hasFieldMarshal
  | hasDeclSecurity
  | memberRefParent
  | hasSemantics
  | methodDefOrRef
  | memberForwarded
  | implementation
  | customAttributeType
  | resolutionScope
  | typeOrMethodDef
  deriving DecidableEq, Repr

namespace CodedIndex

/-- The tables by tag; `none` for a tag that is not used. -/
def tables : CodedIndex → List (Option Table)
  | typeDefOrRef => [some .typeDef, some .typeRef, some .typeSpec]
  | hasConstant => [some .field, some .param, some .property]
  | hasCustomAttribute =>
    [some .methodDef, some .field, some .typeRef, some .typeDef, some .param, some .interfaceImpl,
     some .memberRef, some .module, some .declSecurity, some .property, some .event,
     some .standAloneSig, some .moduleRef, some .typeSpec, some .assembly, some .assemblyRef,
     some .file, some .exportedType, some .manifestResource, some .genericParam,
     some .genericParamConstraint, some .methodSpec]
  | hasFieldMarshal => [some .field, some .param]
  | hasDeclSecurity => [some .typeDef, some .methodDef, some .assembly]
  | memberRefParent =>
    [some .typeDef, some .typeRef, some .moduleRef, some .methodDef, some .typeSpec]
  | hasSemantics => [some .event, some .property]
  | methodDefOrRef => [some .methodDef, some .memberRef]
  | memberForwarded => [some .field, some .methodDef]
  | implementation => [some .file, some .assemblyRef, some .exportedType]
  | customAttributeType => [none, none, some .methodDef, some .memberRef, none]
  | resolutionScope => [some .module, some .moduleRef, some .assemblyRef, some .typeRef]
  | typeOrMethodDef => [some .typeDef, some .methodDef]

/-- How many bits the tag takes. -/
def tagBits : CodedIndex → Nat
  | hasCustomAttribute => 5
  | memberRefParent | customAttributeType => 3
  | typeDefOrRef | hasConstant | hasDeclSecurity | implementation | resolutionScope => 2
  | hasFieldMarshal | hasSemantics | methodDefOrRef | memberForwarded | typeOrMethodDef => 1

/-- The table and row that a value refers to. Row zero is no row. -/
def decode (k : CodedIndex) (value : UInt32) : Option (Table × UInt32) := do
  let tag := value.toNat % (1 <<< k.tagBits)
  let row := value.toNat >>> k.tagBits
  let table ← (k.tables[tag]?).join
  return (table, UInt32.ofNat row)

/-- The value that refers to a row. Of the row number the highest bits are lost to the tag. -/
def encode (k : CodedIndex) (table : Table) (row : UInt32) : Option UInt32 :=
  (k.tables.idxOf? (some table)).map fun tag =>
    UInt32.ofNat (row.toNat <<< k.tagBits + tag)

end CodedIndex

/-- What a column holds. -/
inductive Column
  | word
  | dword
  | string
  | guid
  | blob
  | row (table : Table)
  | coded (kind : CodedIndex)
  deriving DecidableEq, Repr

/-- The columns of a table. -/
def Table.columns : Table → List Column
  | module => [.word, .string, .guid, .guid, .guid]
  | typeRef => [.coded .resolutionScope, .string, .string]
  | typeDef =>
    [.dword, .string, .string, .coded .typeDefOrRef, .row .field, .row .methodDef]
  | fieldPtr => [.row .field]
  | field => [.word, .string, .blob]
  | methodPtr => [.row .methodDef]
  | methodDef => [.dword, .word, .word, .string, .blob, .row .param]
  | paramPtr => [.row .param]
  | param => [.word, .word, .string]
  | interfaceImpl => [.row .typeDef, .coded .typeDefOrRef]
  | memberRef => [.coded .memberRefParent, .string, .blob]
  | constant => [.word, .coded .hasConstant, .blob]
  | customAttribute => [.coded .hasCustomAttribute, .coded .customAttributeType, .blob]
  | fieldMarshal => [.coded .hasFieldMarshal, .blob]
  | declSecurity => [.word, .coded .hasDeclSecurity, .blob]
  | classLayout => [.word, .dword, .row .typeDef]
  | fieldLayout => [.dword, .row .field]
  | standAloneSig => [.blob]
  | eventMap => [.row .typeDef, .row .event]
  | eventPtr => [.row .event]
  | event => [.word, .string, .coded .typeDefOrRef]
  | propertyMap => [.row .typeDef, .row .property]
  | propertyPtr => [.row .property]
  | property => [.word, .string, .blob]
  | methodSemantics => [.word, .row .methodDef, .coded .hasSemantics]
  | methodImpl => [.row .typeDef, .coded .methodDefOrRef, .coded .methodDefOrRef]
  | moduleRef => [.string]
  | typeSpec => [.blob]
  | implMap => [.word, .coded .memberForwarded, .string, .row .moduleRef]
  | fieldRva => [.dword, .row .field]
  | encLog => [.dword, .dword]
  | encMap => [.dword]
  | assembly => [.dword, .word, .word, .word, .word, .dword, .blob, .string, .string]
  | assemblyProcessor => [.dword]
  | assemblyOs => [.dword, .dword, .dword]
  | assemblyRef => [.word, .word, .word, .word, .dword, .blob, .string, .string, .blob]
  | assemblyRefProcessor => [.dword, .row .assemblyRef]
  | assemblyRefOs => [.dword, .dword, .dword, .row .assemblyRef]
  | file => [.dword, .string, .blob]
  | exportedType => [.dword, .dword, .string, .string, .coded .implementation]
  | manifestResource => [.dword, .dword, .string, .coded .implementation]
  | nestedClass => [.row .typeDef, .row .typeDef]
  | genericParam => [.word, .word, .coded .typeOrMethodDef, .string]
  | methodSpec => [.coded .methodDefOrRef, .blob]
  | genericParamConstraint => [.row .genericParam, .coded .typeDefOrRef]

end WinFloor.Metadata
