import WinFloor.Fault

/-!
Sections of a PE image: which part of the file each address of the loaded image comes from.
-/
namespace WinFloor.Image

/-- A section header, as far as addresses are concerned. -/
structure Section where
  address : UInt32
  memorySize : UInt32
  fileSize : UInt32
  fileOffset : UInt32
  deriving DecidableEq, Repr

/-- How many addresses the section takes: the larger of its two sizes. -/
def Section.extent (s : Section) : Nat :=
  max s.memorySize.toNat s.fileSize.toNat

def Section.contains (s : Section) (address : UInt32) : Bool :=
  s.address.toNat ≤ address.toNat && address.toNat < s.address.toNat + s.extent

/-- The sections in table order, and the size of the headers before them. -/
structure SectionMap where
  headerSize : UInt32
  sections : List Section
  deriving DecidableEq, Repr

/-- The file offset behind an address. Headers are loaded where they stand in the file; of two
sections that claim an address the first has it, and an address that none claims stays as it is. -/
def SectionMap.offset (m : SectionMap) (address : UInt32) : Nat :=
  if address < m.headerSize then address.toNat
  else
    match m.sections.find? (·.contains address) with
    | some s => address.toNat - s.address.toNat + s.fileOffset.toNat
    | none => address.toNat

/-- The address `n` further on, while it fits in 32 bits. -/
def advance? (address : UInt32) (n : Nat) : Option UInt32 :=
  if address.toNat + n < UInt32.size then some (UInt32.ofNat (address.toNat + n)) else none

theorem toNat_of_advance? {address next : UInt32} {n : Nat} (h : advance? address n = some next) :
    next.toNat = address.toNat + n := by
  simp only [advance?] at h
  split at h
  next fits =>
    cases h
    rw [UInt32.toNat_ofNat', Nat.mod_eq_of_lt fits]
  next => cases h

end WinFloor.Image
