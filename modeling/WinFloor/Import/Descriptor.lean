import WinFloor.Image.Header
import WinFloor.Import.Symbol

/-!
The entries of the two import directories. Each names a module and a table of the symbols needed
from it; an entry of zeros ends the directory.
-/
namespace WinFloor.Import

open Image

/-- The words of `count` fields of four octets. -/
def fields (octets : Octets) (count : Nat) : List UInt32 :=
  (List.range count).map fun i =>
    UInt32.ofNat (littleEndian (octets.extract (4 * i) (4 * i + 4)).toList)

/-- An entry of the import directory. -/
structure Descriptor where
  lookupTable : UInt32
  timeStamp : UInt32
  forwarderChain : UInt32
  moduleName : UInt32
  addressTable : UInt32
  deriving DecidableEq, Repr

namespace Descriptor

def size : Nat := 20

def null : Descriptor := ⟨0, 0, 0, 0, 0⟩

def read (v : View) (address : UInt32) : Except Fault Descriptor := do
  let f := fields (← v.slice address size) 5
  return ⟨f.getD 0 0, f.getD 1 0, f.getD 2 0, f.getD 3 0, f.getD 4 0⟩

/-- The lookup table, or the address table where a linker left the former out. -/
def symbolTable (d : Descriptor) : UInt32 :=
  if d.lookupTable = 0 then d.addressTable else d.lookupTable

end Descriptor

/-- An entry of the delay-load directory. -/
structure DelayDescriptor where
  attributes : UInt32
  moduleName : UInt32
  moduleHandle : UInt32
  addressTable : UInt32
  nameTable : UInt32
  boundTable : UInt32
  unloadTable : UInt32
  timeStamp : UInt32
  deriving DecidableEq, Repr

namespace DelayDescriptor

def size : Nat := 32

def null : DelayDescriptor := ⟨0, 0, 0, 0, 0, 0, 0, 0⟩

def read (v : View) (address : UInt32) : Except Fault DelayDescriptor := do
  let f := fields (← v.slice address size) 8
  return ⟨f.getD 0 0, f.getD 1 0, f.getD 2 0, f.getD 3 0, f.getD 4 0, f.getD 5 0, f.getD 6 0,
    f.getD 7 0⟩

/-- Whether pointers are addresses relative to the image base. Old linkers wrote absolute ones. -/
def isRelative (d : DelayDescriptor) : Bool :=
  d.attributes.toNat.testBit 0

end DelayDescriptor

/-- What the pointers of an entry count from. -/
inductive Addressing
  | relative
  | absolute (imageBase : UInt64)
  deriving DecidableEq, Repr

namespace Addressing

/-- The relative address a pointer stands for, if it is one of 32 bits. -/
def toRelative? (a : Addressing) (pointer : Nat) : Option UInt32 :=
  match a with
  | relative => narrow pointer
  | absolute base => if base.toNat ≤ pointer then narrow (pointer - base.toNat) else none
where
  narrow (n : Nat) : Option UInt32 := if n < UInt32.size then some (UInt32.ofNat n) else none

end Addressing

/-- An entry of either directory, reduced to what a walk needs. An address of zero is no address. -/
structure Entry where
  moduleName : UInt32
  symbolTable : UInt32
  addressing : Addressing
  deriving DecidableEq, Repr

namespace Source

def directory (source : Source) (h : Header) : Directory :=
  match source with
  | .classic => h.directory importDirectory
  | .delayed => h.directory delayImportDirectory

def entrySize : Source → Nat
  | .classic => Descriptor.size
  | .delayed => DelayDescriptor.size

/-- The entry at an address: `none` at the end of the directory. -/
def entryAt (source : Source) (h : Header) (v : View) (address : UInt32) :
    Except Fault (Option Entry) :=
  match source with
  | .classic => do
    let d ← Descriptor.read v address
    return if d = .null then none else some ⟨d.moduleName, d.symbolTable, .relative⟩
  | .delayed => do
    let d ← DelayDescriptor.read v address
    let addressing := if d.isRelative then .relative else .absolute h.imageBase
    let target (pointer : UInt32) := (addressing.toRelative? pointer.toNat).getD 0
    return if d = .null then none
      else some ⟨target d.moduleName, target d.nameTable, addressing⟩

end Source

end WinFloor.Import
