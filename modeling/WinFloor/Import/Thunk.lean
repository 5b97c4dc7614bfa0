import WinFloor.Import.Descriptor

/-!
The symbol tables of imports. A slot holds an ordinal or points at a name with a two-octet hint in
front; a slot of zero ends the table.
-/
namespace WinFloor.Import

open Image

/-- A slot that is not zero. -/
inductive Thunk
  | ordinal (number : UInt16)
  | hintName (pointer : Nat)
  deriving DecidableEq, Repr

/-- The bit that marks a slot as an ordinal. -/
def ordinalBit : Format → Nat
  | .pe32 => 31
  | .pe32Plus => 63

def slotSize : Format → Nat
  | .pe32 => 4
  | .pe32Plus => 8

def Thunk.ofValue (format : Format) (value : Nat) : Thunk :=
  if value.testBit (ordinalBit format) then .ordinal (UInt16.ofNat value) else .hintName value

/-- The address of the hint a slot points at. Relative pointers of 64-bit images have 31 bits; an
absolute one is taken relative to the image base as a whole. -/
def Addressing.hintAddress? (a : Addressing) (format : Format) (pointer : Nat) : Option UInt32 :=
  match a, format with
  | .relative, .pe32Plus => some (UInt32.ofNat (pointer % 0x80000000))
  | a, _ => a.toRelative? pointer

/-- What stands in a slot of a symbol table. -/
inductive Slot
  | unreadable
  | last
  | symbol (name : SymbolName)
  deriving DecidableEq, Repr

def hintSize : Nat := 2

def Thunk.slot (v : View) (format : Format) (addressing : Addressing) : Thunk → Slot
  | .ordinal number => .symbol (.ordinal number)
  | .hintName pointer =>
    match (addressing.hintAddress? format pointer).bind (advance? · hintSize) with
    | none => .unreadable
    | some address =>
      match v.name address with
      | .ok text => .symbol (.named text)
      | .error _ => .unreadable

def slotAt (v : View) (format : Format) (addressing : Addressing) (address : UInt32) : Slot :=
  match v.data.number (v.map.offset address) (slotSize format) with
  | .error _ => .unreadable
  | .ok 0 => .last
  | .ok value => (Thunk.ofValue format value).slot v format addressing

/-- The symbols of one table, and whether it was read to its end. -/
structure Table where
  names : Array SymbolName
  complete : Bool

/-- Reads slots from `address` on, behind the names read already. -/
def Table.readFrom (v : View) (format : Format) (addressing : Addressing)
    (names : Array SymbolName) (address : UInt32) : Table :=
  match slotAt v format addressing address with
  | .unreadable => ⟨names, false⟩
  | .last => ⟨names, true⟩
  | .symbol name =>
    match _fits : advance? address (slotSize format) with
    | none => ⟨names.push name, false⟩
    | some next => Table.readFrom v format addressing (names.push name) next
termination_by UInt32.size - address.toNat
decreasing_by
  have step := toNat_of_advance? _fits
  have bound := next.toNat_lt_size
  have : 0 < slotSize format := by cases format <;> decide
  omega

/-- The table at an address; none at address zero, which is complete. -/
def Table.read (v : View) (format : Format) (addressing : Addressing) (address : UInt32) : Table :=
  if address = 0 then ⟨#[], true⟩ else Table.readFrom v format addressing #[] address

end WinFloor.Import
