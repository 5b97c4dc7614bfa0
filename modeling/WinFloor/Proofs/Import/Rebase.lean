import WinFloor.Proofs.Image.Agreement
import WinFloor.Proofs.Import.Passage

/-!
Delay-load tables with absolute pointers in the place of relative ones (`Rebased`): which words of a
file change, and what has to stay.
-/
namespace WinFloor

open Image

/-- A word of a file and the number to be written there. -/
structure Edit where
  place : Span
  value : Nat
  deriving DecidableEq, Repr

namespace Import

/-! ## What a walk reads -/

section
variable (source : Source) (h : Header) (v : View)

/-- The number in a slot, if it is there. -/
def slotValue? (slot : UInt32) : Option Nat :=
  (v.data.number (v.map.offset slot) (slotSize h.format)).toOption

def slotSpan (slot : UInt32) : Span := ⟨v.map.offset slot, slotSize h.format⟩

/-- Where the name is that a slot points at. -/
def nameAddress? (addressing : Addressing) (slot : UInt32) : Option UInt32 :=
  match slotValue? h v slot with
  | none | some 0 => none
  | some value =>
    if value.testBit (ordinalBit h.format) then none
    else (addressing.hintAddress? h.format value).bind (advance? · hintSize)

/-- The addresses that names are read from: those of the modules and those of the symbols. -/
def namesRead : List UInt32 :=
  (entriesRead source h v).flatMap fun address =>
    match source.entryAt h v address with
    | .error _ | .ok none => []
    | .ok (some entry) =>
      (if entry.moduleName = 0 then [] else [entry.moduleName]) ++
        (slotsRead source h v address).filterMap (nameAddress? h v entry.addressing)

/-- The slots with ordinals that are read. -/
def ordinalsRead : List Span :=
  (entriesRead source h v).flatMap fun address =>
    ((slotsRead source h v address).filter fun slot =>
      (slotValue? h v slot).any fun value => value.testBit (ordinalBit h.format)).map
      (slotSpan h v)

end

/-! ## The delay-load tables of a file -/

section
variable (h : Header) (v : View)

/-- The entry at an address, unless it is the one of zeros. -/
def delayEntryAt? (address : UInt32) : Option DelayDescriptor :=
  (DelayDescriptor.read v address).toOption.filter (· ≠ .null)

/-- Where the entries of the delay-load directory stand, with its end. -/
def delayRow : List UInt32 :=
  if (Source.delayed.directory h).isPresent then
    row (fun a => (delayEntryAt? v a).isSome) DelayDescriptor.size (by decide)
      (Source.delayed.directory h).address
  else []

/-- The entries before the one of zeros. -/
def delayEntries : List (UInt32 × DelayDescriptor) :=
  (delayRow h v).filterMap fun address => (delayEntryAt? v address).map (address, ·)

/-- Where the slots of a table stand, with its end. -/
def slotRow (table : UInt32) : List UInt32 :=
  if table = 0 then []
  else row (fun a => (slotValue? h v a).any (· ≠ 0)) (slotSize h.format) (slotSize_pos h.format) table

/-- The slots of the tables that point at names, with their numbers. -/
def namedSlots : List (UInt32 × Nat) :=
  (delayEntries h v).flatMap fun (_, d) =>
    (slotRow h v d.nameTable).filterMap fun slot =>
      ((slotValue? h v slot).filter fun value =>
        value ≠ 0 ∧ value.testBit (ordinalBit h.format) = false).map (slot, ·)

/-- The slots of zero that end the tables, and the entry of zeros that ends the directory. -/
def terminators : List Span :=
  ((delayRow h v).filter fun address =>
      (DelayDescriptor.read v address).toOption = some .null).map
    (fun address => ⟨v.map.offset address, DelayDescriptor.size⟩) ++
  (delayEntries h v).flatMap fun (_, d) =>
    ((slotRow h v d.nameTable).filter fun slot => slotValue? h v slot = some 0).map (slotSpan h v)

/-- The words of an entry that differ once it holds absolute pointers: the attributes, without the
bit for relative ones, and the two pointers that a walk follows. -/
def DelayDescriptor.edits (offset : Nat) (d : DelayDescriptor) : List Edit :=
  [⟨⟨offset, 4⟩, 2 * (d.attributes.toNat / 2)⟩,
   ⟨⟨offset + 4, 4⟩, d.moduleName.toNat + h.imageBase.toNat⟩,
   ⟨⟨offset + 16, 4⟩, d.nameTable.toNat + h.imageBase.toNat⟩]

/-- All words that differ: those of the entries, and the slots that point at names. -/
def edits : List Edit :=
  ((delayEntries h v).flatMap fun (address, d) => d.edits h (v.map.offset address)) ++
  (namedSlots h v).map fun (slot, value) => ⟨slotSpan h v slot, value + h.imageBase.toNat⟩

end

/-- The texts that stand, in one file or the other, where the walk through the first reads names. -/
def textsRead (h : Header) (first second : Octets) : List Span :=
  (namesRead .delayed h (h.view first)).flatMap fun name =>
    [first, second].filterMap (·.textSpan? (h.map.offset name))

/-- The second file is the first with absolute pointers in its delay-load tables, which were all
relative, and is nowhere else different from it. Pointers at names have 31 bits at first, and the
bit for ordinals stays clear. The words that differ lie apart from one another, from what ends the
tables, and from the texts that are read. -/
structure Rebased (h : Header) (first second : Octets) : Prop where
  size : second.size = first.size
  relative : ∀ entry ∈ delayEntries h (h.view first), entry.2.isRelative = true
  narrow : ∀ slot ∈ namedSlots h (h.view first), slot.2 < 0x80000000
  unflagged : ∀ slot ∈ namedSlots h (h.view first),
    (slot.2 + h.imageBase.toNat).testBit (ordinalBit h.format) = false
  written : ∀ edit ∈ edits h (h.view first),
    (second.number edit.place.start edit.place.length).toOption = some edit.value
  elsewhere : ∀ i < first.size,
    (∀ edit ∈ edits h (h.view first), ¬edit.place.Covers i) → second[i]? = first[i]?
  apart : ∀ edit ∈ edits h (h.view first), ∀ other ∈ edits h (h.view first),
    edit = other ∨ edit.place.Apart other.place
  ends : ∀ edit ∈ edits h (h.view first), ∀ span ∈ terminators h (h.view first),
    edit.place.Apart span
  texts : ∀ edit ∈ edits h (h.view first), ∀ span ∈ textsRead h first second,
    edit.place.Apart span

/-- The words that differ lie apart from the ordinals that are read. -/
def OrdinalsApart (h : Header) (v : View) : Prop :=
  ∀ edit ∈ edits h v, ∀ span ∈ ordinalsRead .delayed h v, edit.place.Apart span

end Import

end WinFloor
