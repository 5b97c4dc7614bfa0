import WinFloor.Import.Walk

/-!
Import directories as the octets of a file lay them out. An address leads to octets of the file
(`View.Holds`); from there slots stand up to a zero slot (`TableHolds`), and entries with all that
they point at up to an entry of zeros (`DirectoryHolds`). Where a part of the file means nothing to
a loader, nothing is asked of it: hints, time stamps, the octets between the parts.
-/
namespace WinFloor

open Image

namespace Image.View

/-- The octets stand in the file where the address leads to. -/
def Holds (v : View) (address : Nat) (octets : List UInt8) : Prop :=
  address < UInt32.size ∧ octets <+: v.data.toList.drop (v.map.offset (UInt32.ofNat address))

instance (v : View) (address : Nat) (octets : List UInt8) : Decidable (v.Holds address octets) :=
  inferInstanceAs (Decidable (_ ∧ _))

end Image.View

namespace Import

/-- A slot that stands for a symbol: an ordinal in its low 16 bits, or the address of a hint and
the name behind it. -/
inductive TableSlot (format : Format)
  | ordinal (value : Nat) (fits : value < 1 <<< (8 * slotSize format))
      (flagged : value.testBit (ordinalBit format) = true)
  | named (value : Nat) (fits : value < 1 <<< (8 * slotSize format))
      (unflagged : value.testBit (ordinalBit format) = false) (nonzero : value ≠ 0)
      (text : List UInt8) (ended : 0 ∉ text)

namespace TableSlot

variable {format : Format}

def value : TableSlot format → Nat
  | ordinal value .. => value
  | named value .. => value

def name : TableSlot format → SymbolName
  | ordinal value .. => .ordinal (UInt16.ofNat value)
  | named _ _ _ _ text _ => .named (Text.Utf8.lenient text)

end TableSlot

/-- The address in a slot. In 64-bit images it has 31 bits, and those above do not count. -/
def hintAddress : Format → Nat → Nat
  | .pe32, value => value
  | .pe32Plus, value => value % 0x80000000

section
variable (v : View) {format : Format}

/-- The name a slot points at is there, behind its hint. -/
def TableSlot.NameHolds : TableSlot format → Prop
  | ordinal .. => True
  | named value _ _ _ text _ => v.Holds (hintAddress format value + hintSize) (text ++ [0])

/-- A table that has these slots and then a zero slot. -/
def TableHolds (address : Nat) : List (TableSlot format) → Prop
  | [] => v.Holds address (List.replicate (slotSize format) 0)
  | slot :: rest =>
    v.Holds address (toLittleEndian (slotSize format) slot.value) ∧ slot.NameHolds v ∧
      TableHolds (address + slotSize format) rest

instance (slot : TableSlot format) : Decidable (slot.NameHolds v) :=
  match slot with
  | .ordinal .. => .isTrue trivial
  | .named value _ _ _ text _ =>
    inferInstanceAs (Decidable (v.Holds (hintAddress format value + hintSize) (text ++ [0])))

instance TableHolds.decidable (address : Nat) :
    ∀ slots : List (TableSlot format), Decidable (TableHolds v address slots)
  | [] => inferInstanceAs (Decidable (v.Holds _ _))
  | _ :: rest =>
    have := TableHolds.decidable (address + slotSize format) rest
    inferInstanceAs (Decidable (_ ∧ _ ∧ _))

end

/-! ## Entries -/

def dwords (words : List UInt32) : List UInt8 :=
  words.flatMap fun w => toLittleEndian 4 w.toNat

def Descriptor.octets (d : Descriptor) : List UInt8 :=
  dwords [d.lookupTable, d.timeStamp, d.forwarderChain, d.moduleName, d.addressTable]

def DelayDescriptor.octets (d : DelayDescriptor) : List UInt8 :=
  dwords [d.attributes, d.moduleName, d.moduleHandle, d.addressTable, d.nameTable, d.boundTable,
    d.unloadTable, d.timeStamp]

/-- An entry of a directory, in which addresses are relative. -/
inductive RelativeEntry : Source → Type
  | classic (d : Descriptor) : RelativeEntry .classic
  | delayed (d : DelayDescriptor) (relative : d.isRelative = true) : RelativeEntry .delayed

namespace RelativeEntry

variable {source : Source}

def octets : RelativeEntry source → List UInt8
  | classic d => d.octets
  | delayed d _ => d.octets

def moduleName : RelativeEntry source → UInt32
  | classic d => d.moduleName
  | delayed d _ => d.moduleName

/-- The table of the symbols. The address table is one only where there is no lookup table. -/
def symbolTable : RelativeEntry source → UInt32
  | classic d => if d.lookupTable = 0 then d.addressTable else d.lookupTable
  | delayed d _ => d.nameTable

end RelativeEntry

/-- What a directory says of one module: its name, and the slots of the table of its symbols. -/
structure ModuleEntry (source : Source) (format : Format) where
  entry : RelativeEntry source
  moduleName : List UInt8
  slots : List (TableSlot format)
  named : entry.moduleName ≠ 0
  tabled : entry.symbolTable ≠ 0
  ended : 0 ∉ moduleName

/-- The symbols of one module in the order of their slots. -/
def ModuleEntry.symbols {source : Source} {format : Format} (m : ModuleEntry source format) :
    List Symbol :=
  m.slots.map fun slot => ⟨Text.Utf8.lenient m.moduleName, slot.name, source⟩

/-- A directory that has these entries and then an entry of zeros, with all that they point at. -/
def DirectoryHolds (v : View) {source : Source} {format : Format} (address : Nat) :
    List (ModuleEntry source format) → Prop
  | [] => v.Holds address (List.replicate source.entrySize 0)
  | m :: rest =>
    v.Holds address m.entry.octets ∧
      v.Holds m.entry.moduleName.toNat (m.moduleName ++ [0]) ∧
      TableHolds v m.entry.symbolTable.toNat m.slots ∧
      DirectoryHolds v (address + source.entrySize) rest

instance DirectoryHolds.decidable (v : View) {source : Source} {format : Format} (address : Nat) :
    ∀ modules : List (ModuleEntry source format), Decidable (DirectoryHolds v address modules)
  | [] => inferInstanceAs (Decidable (v.Holds _ _))
  | _ :: rest =>
    have := DirectoryHolds.decidable v (address + source.entrySize) rest
    inferInstanceAs (Decidable (_ ∧ _ ∧ _ ∧ _))

/-- A file in which a directory has these entries. A directory that an image lacks has none. -/
def Laid (source : Source) (h : Header) (data : Octets)
    (modules : List (ModuleEntry source h.format)) : Prop :=
  if (source.directory h).isPresent then
    DirectoryHolds (h.view data) (source.directory h).address.toNat modules
  else modules = []

instance (source : Source) (h : Header) (data : Octets)
    (modules : List (ModuleEntry source h.format)) : Decidable (Laid source h data modules) :=
  inferInstanceAs (Decidable (ite _ (DirectoryHolds _ _ _) _))

end Import

end WinFloor
