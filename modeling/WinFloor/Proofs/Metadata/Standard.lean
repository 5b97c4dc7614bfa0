import WinFloor.Metadata.Table

/-!
The tables as ECMA-335 lays them down: their numbers and their columns (II.22), and the references
that can point into several of them (II.24.2.6). Whatever is written here is written by these. The
reader has its own tables, and they are the same: numbers (`any_ofId?`), columns
(`map_ofColumn_columns`) and references (`tables_ofIndex`, `tagBits_ofIndex`).
-/
namespace WinFloor.Metadata.Standard

/-- A reference that can point into several tables. The place of a table is its tag; there are tags
that stand for none. -/
structure Reference where
  tagBits : Nat
  tables : List (Option Table)
  deriving DecidableEq, Repr

namespace Reference

def typeDefOrRef : Reference := ⟨2, [some .typeDef, some .typeRef, some .typeSpec]⟩

def hasConstant : Reference := ⟨2, [some .field, some .param, some .property]⟩

def hasCustomAttribute : Reference :=
  ⟨5, [some .methodDef, some .field, some .typeRef, some .typeDef, some .param,
    some .interfaceImpl, some .memberRef, some .module, some .declSecurity, some .property,
    some .event, some .standAloneSig, some .moduleRef, some .typeSpec, some .assembly,
    some .assemblyRef, some .file, some .exportedType, some .manifestResource, some .genericParam,
    some .genericParamConstraint, some .methodSpec]⟩

def hasFieldMarshal : Reference := ⟨1, [some .field, some .param]⟩

def hasDeclSecurity : Reference := ⟨2, [some .typeDef, some .methodDef, some .assembly]⟩

def memberRefParent : Reference :=
  ⟨3, [some .typeDef, some .typeRef, some .moduleRef, some .methodDef, some .typeSpec]⟩

def hasSemantics : Reference := ⟨1, [some .event, some .property]⟩

def methodDefOrRef : Reference := ⟨1, [some .methodDef, some .memberRef]⟩

def memberForwarded : Reference := ⟨1, [some .field, some .methodDef]⟩

def implementation : Reference := ⟨2, [some .file, some .assemblyRef, some .exportedType]⟩

def customAttributeType : Reference :=
  ⟨3, [none, none, some .methodDef, some .memberRef, none]⟩

def resolutionScope : Reference :=
  ⟨2, [some .module, some .moduleRef, some .assemblyRef, some .typeRef]⟩

def typeOrMethodDef : Reference := ⟨1, [some .typeDef, some .methodDef]⟩

/-- The value that refers to a row. -/
def cell (r : Reference) (t : Table) (row : Nat) : Nat :=
  row <<< r.tagBits + r.tables.idxOf (some t)

end Reference

/-- What a column has: a number of two or four octets, an index into a heap, or a reference. -/
inductive Field
  | word
  | dword
  | string
  | guid
  | blob
  | row (table : Table)
  | tagged (reference : Reference)
  deriving DecidableEq, Repr

/-- A table with its number and its columns. -/
structure Entry where
  number : Nat
  table : Table
  fields : List Field
  deriving DecidableEq, Repr

open Reference in
/-- The tables in the order of their numbers. -/
def entries : List Entry :=
  [⟨0x00, .module, [.word, .string, .guid, .guid, .guid]⟩,
   ⟨0x01, .typeRef, [.tagged resolutionScope, .string, .string]⟩,
   ⟨0x02, .typeDef, [.dword, .string, .string, .tagged typeDefOrRef, .row .field, .row .methodDef]⟩,
   ⟨0x03, .fieldPtr, [.row .field]⟩,
   ⟨0x04, .field, [.word, .string, .blob]⟩,
   ⟨0x05, .methodPtr, [.row .methodDef]⟩,
   ⟨0x06, .methodDef, [.dword, .word, .word, .string, .blob, .row .param]⟩,
   ⟨0x07, .paramPtr, [.row .param]⟩,
   ⟨0x08, .param, [.word, .word, .string]⟩,
   ⟨0x09, .interfaceImpl, [.row .typeDef, .tagged typeDefOrRef]⟩,
   ⟨0x0a, .memberRef, [.tagged memberRefParent, .string, .blob]⟩,
   ⟨0x0b, .constant, [.word, .tagged hasConstant, .blob]⟩,
   ⟨0x0c, .customAttribute, [.tagged hasCustomAttribute, .tagged customAttributeType, .blob]⟩,
   ⟨0x0d, .fieldMarshal, [.tagged hasFieldMarshal, .blob]⟩,
   ⟨0x0e, .declSecurity, [.word, .tagged hasDeclSecurity, .blob]⟩,
   ⟨0x0f, .classLayout, [.word, .dword, .row .typeDef]⟩,
   ⟨0x10, .fieldLayout, [.dword, .row .field]⟩,
   ⟨0x11, .standAloneSig, [.blob]⟩,
   ⟨0x12, .eventMap, [.row .typeDef, .row .event]⟩,
   ⟨0x13, .eventPtr, [.row .event]⟩,
   ⟨0x14, .event, [.word, .string, .tagged typeDefOrRef]⟩,
   ⟨0x15, .propertyMap, [.row .typeDef, .row .property]⟩,
   ⟨0x16, .propertyPtr, [.row .property]⟩,
   ⟨0x17, .property, [.word, .string, .blob]⟩,
   ⟨0x18, .methodSemantics, [.word, .row .methodDef, .tagged hasSemantics]⟩,
   ⟨0x19, .methodImpl, [.row .typeDef, .tagged methodDefOrRef, .tagged methodDefOrRef]⟩,
   ⟨0x1a, .moduleRef, [.string]⟩,
   ⟨0x1b, .typeSpec, [.blob]⟩,
   ⟨0x1c, .implMap, [.word, .tagged memberForwarded, .string, .row .moduleRef]⟩,
   ⟨0x1d, .fieldRva, [.dword, .row .field]⟩,
   ⟨0x1e, .encLog, [.dword, .dword]⟩,
   ⟨0x1f, .encMap, [.dword]⟩,
   ⟨0x20, .assembly, [.dword, .word, .word, .word, .word, .dword, .blob, .string, .string]⟩,
   ⟨0x21, .assemblyProcessor, [.dword]⟩,
   ⟨0x22, .assemblyOs, [.dword, .dword, .dword]⟩,
   ⟨0x23, .assemblyRef, [.word, .word, .word, .word, .dword, .blob, .string, .string, .blob]⟩,
   ⟨0x24, .assemblyRefProcessor, [.dword, .row .assemblyRef]⟩,
   ⟨0x25, .assemblyRefOs, [.dword, .dword, .dword, .row .assemblyRef]⟩,
   ⟨0x26, .file, [.dword, .string, .blob]⟩,
   ⟨0x27, .exportedType, [.dword, .dword, .string, .string, .tagged implementation]⟩,
   ⟨0x28, .manifestResource, [.dword, .dword, .string, .tagged implementation]⟩,
   ⟨0x29, .nestedClass, [.row .typeDef, .row .typeDef]⟩,
   ⟨0x2a, .genericParam, [.word, .word, .tagged typeOrMethodDef, .string]⟩,
   ⟨0x2b, .methodSpec, [.tagged methodDefOrRef, .blob]⟩,
   ⟨0x2c, .genericParamConstraint, [.row .genericParam, .tagged typeDefOrRef]⟩]

/-- The columns of a table. -/
def fields (t : Table) : List Field :=
  ((entries.find? (·.table = t)).map Entry.fields).getD []

/-! ## The tables of the reader -/

theorem map_table_entries : entries.map Entry.table = Table.all := by
  rfl

theorem number_entries : ∀ i (inside : i < entries.length), entries[i].number = i := by
  decide

theorem ofId?_eq (id : Nat) : Table.ofId? id = entries[id]?.map Entry.table := by
  rw [Table.ofId?, ← map_table_entries, List.getElem?_map]

theorem any_ofId? (id : Nat) (p : Table → Bool) :
    (Table.ofId? id).any p = entries.any fun e => e.number = id && p e.table := by
  rw [ofId?_eq, Option.any_map, Bool.eq_iff_iff]
  simp only [Option.any_eq_true, List.any_eq_true, Bool.and_eq_true, decide_eq_true_eq]
  constructor
  · rintro ⟨e, stands, holds⟩
    obtain ⟨inside, rfl⟩ := List.getElem?_eq_some_iff.mp stands
    exact ⟨_, List.getElem_mem inside, number_entries id inside, holds⟩
  · rintro ⟨e, listed, numbered, holds⟩
    obtain ⟨place, inside, rfl⟩ := List.mem_iff_getElem.mp listed
    rw [number_entries place inside] at numbered
    exact ⟨_, numbered ▸ List.getElem?_eq_getElem inside, holds⟩

/-- The reference that a kind of the reader stands for. -/
def ofIndex : CodedIndex → Reference
  | .typeDefOrRef => .typeDefOrRef
  | .hasConstant => .hasConstant
  | .hasCustomAttribute => .hasCustomAttribute
  | .hasFieldMarshal => .hasFieldMarshal
  | .hasDeclSecurity => .hasDeclSecurity
  | .memberRefParent => .memberRefParent
  | .hasSemantics => .hasSemantics
  | .methodDefOrRef => .methodDefOrRef
  | .memberForwarded => .memberForwarded
  | .implementation => .implementation
  | .customAttributeType => .customAttributeType
  | .resolutionScope => .resolutionScope
  | .typeOrMethodDef => .typeOrMethodDef

theorem tables_ofIndex (k : CodedIndex) : (ofIndex k).tables = k.tables := by
  cases k <;> rfl

theorem tagBits_ofIndex (k : CodedIndex) : (ofIndex k).tagBits = k.tagBits := by
  cases k <;> rfl

def ofColumn : Column → Field
  | .word => .word
  | .dword => .dword
  | .string => .string
  | .guid => .guid
  | .blob => .blob
  | .row t => .row t
  | .coded k => .tagged (ofIndex k)

theorem map_ofColumn_columns (t : Table) : t.columns.map ofColumn = fields t := by
  cases t <;> rfl

end WinFloor.Metadata.Standard
