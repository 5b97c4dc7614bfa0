import WinFloor.Image.View

/-!
The headers of a PE image: what machine and Windows versions it names, where its data directories
lie, and its sections. A file whose headers are not complete has none.
-/
namespace WinFloor.Image

/-- The two layouts of the optional header. -/
inductive Format
  | pe32
  | pe32Plus
  deriving DecidableEq, Repr

namespace Format

def ofMagic? (magic : UInt16) : Option Format :=
  if magic = 0x10b then some pe32
  else if magic = 0x20b then some pe32Plus
  else none

def bits : Format → Nat
  | pe32 => 32
  | pe32Plus => 64

/-- Where the data directories start in the optional header, which is the least size it can have. -/
def directoryOffset : Format → Nat
  | pe32 => 96
  | pe32Plus => 112

end Format

structure Version where
  major : UInt16
  minor : UInt16
  deriving DecidableEq, Repr

structure Directory where
  address : UInt32
  size : UInt32
  deriving DecidableEq, Repr

def Directory.empty : Directory := ⟨0, 0⟩

def Directory.isPresent (d : Directory) : Bool :=
  d.address != 0 && d.size != 0

/-- The places of the directories used here. -/
def importDirectory : Nat := 1
def delayImportDirectory : Nat := 13
def cliDirectory : Nat := 14

def maxDirectories : Nat := 16
def directorySize : Nat := 8
def coffHeaderSize : Nat := 20
def sectionHeaderSize : Nat := 40

/-- The headers of an image. -/
structure Header where
  machine : UInt16
  format : Format
  imageBase : UInt64
  osVersion : Version
  subsystemVersion : Version
  subsystem : UInt16
  directories : List Directory
  map : SectionMap
  deriving DecidableEq, Repr

namespace Header

/-- The directory at a place; empty where the header has none. -/
def directory (h : Header) (place : Nat) : Directory :=
  h.directories.getD place Directory.empty

def view (h : Header) (data : Octets) : View := ⟨data, h.map⟩

def bits (h : Header) : Nat := h.format.bits

def architecture (h : Header) : String :=
  if h.machine = 0x8664 then "x86_64"
  else if h.machine = 0x014c then "i386"
  else if h.machine = 0x01c0 then "ARM"
  else if h.machine = 0xaa64 then "ARM64"
  else if h.machine = 0x01c4 then "ARM (Windows RT)"
  else if h.machine = 0xa641 then "ARM64EC"
  else s!"Unknown ({Text.hex 1 h.machine.toNat})"

/-- `MZ`, and `PE` with two zeros. -/
def dosSignature : List UInt8 := [0x4d, 0x5a]
def imageSignature : List UInt8 := [0x50, 0x45, 0, 0]

/-- A word of the headers whose absence is the given defect. -/
def wordOr (d : Octets) (offset : Nat) (defect : ImageDefect) : Except Fault UInt16 :=
  match d.word offset with
  | .ok w => .ok w
  | .error _ => .error (.image defect)

def versionAt (d : Octets) (offset : Nat) : Except Fault Version := do
  return ⟨← d.word offset, ← d.word (offset + 2)⟩

def directoryAt (d : Octets) (offset : Nat) : Except Fault Directory := do
  return ⟨← d.dword offset, ← d.dword (offset + 4)⟩

/-- The section header at `offset`, the one of `count` that has the number `index`. -/
def sectionAt (d : Octets) (offset index count : Nat) : Except Fault Section :=
  if offset + sectionHeaderSize ≤ d.size then do
    let memorySize ← d.dword (offset + 8)
    let address ← d.dword (offset + 12)
    let fileSize ← d.dword (offset + 16)
    let fileOffset ← d.dword (offset + 20)
    return { address, memorySize, fileSize, fileOffset }
  else .error (.image (.sectionTableTruncated index count))

/-- How many directories are read: no more than declared, than there is a meaning for, and than the
optional header has room for. -/
def directoryCount (format : Format) (declared optionalSize : Nat) : Nat :=
  min (min declared maxDirectories) ((optionalSize - format.directoryOffset) / directorySize)

/-- What the optional header at `offset` and the section table behind it hold. -/
def ofOptional (d : Octets) (machine : UInt16) (format : Format)
    (offset optionalSize sectionCount : Nat) : Except Fault Header := do
  let imageBase ←
    match format with
    | .pe32 => UInt64.ofNat <$> d.number (offset + 28) 4
    | .pe32Plus => d.qword (offset + 24)
  let osVersion ← versionAt d (offset + 40)
  let subsystemVersion ← versionAt d (offset + 48)
  let headerSize ← d.dword (offset + 60)
  let subsystem ← d.word (offset + 68)
  let directoryBase := offset + format.directoryOffset
  let declared ← d.dword (directoryBase - 4)
  let directories ←
    (List.range (directoryCount format declared.toNat optionalSize)).mapM fun i =>
      directoryAt d (directoryBase + i * directorySize)
  let sections ←
    (List.range sectionCount).mapM fun i =>
      sectionAt d (offset + optionalSize + i * sectionHeaderSize) i sectionCount
  return { machine, format, imageBase, osVersion, subsystemVersion, subsystem, directories,
           map := ⟨headerSize, sections⟩ }

/-- Reads the headers of a file. -/
def read (d : Octets) : Except Fault Header := do
  if d.size < 64 || !d.startsWith dosSignature then throw .dosSignature
  let start ← UInt32.toNat <$> d.dword 0x3c
  match d.slice start 4 with
  | .ok signature => if signature.toList ≠ imageSignature then throw .imageSignature
  | .error _ => throw .imageSignature
  let coff := start + 4
  let machine ← wordOr d coff .coffHeaderTruncated
  let sectionCount ← UInt16.toNat <$> wordOr d (coff + 2) .coffHeaderTruncated
  let optionalSize ← UInt16.toNat <$> wordOr d (coff + 16) .coffHeaderTruncated
  let optional := coff + coffHeaderSize
  let magic ← wordOr d optional .optionalHeaderTruncated
  match Format.ofMagic? magic with
  | none => throw (.optionalHeaderMagic magic)
  | some format =>
    if optionalSize < format.directoryOffset then
      throw (.image (.optionalHeaderTooSmall optionalSize))
    if d.size < optional + optionalSize then throw (.image .optionalHeaderTruncated)
    ofOptional d machine format optional optionalSize sectionCount

end Header

end WinFloor.Image
