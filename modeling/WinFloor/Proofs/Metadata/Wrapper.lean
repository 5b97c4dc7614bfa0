import WinFloor.Program
import WinFloor.Proofs.Image.RoundTrip

/-!
Metadata in an image. An image wraps a root if its CLI header names the place and the size of what
stands there (`Wraps`); all of these are found through the sections of the image. The root is then
what is read (`locate_of_wraps`), so that the image loads as the bare root does, or fails as it does
(`catalogOf_wrapped`).
-/
namespace WinFloor

theorem Octets.startsWith_iff_prefix {d : Octets} {signature : List UInt8} :
    d.startsWith signature = true ↔ signature <+: d.toList := by
  have front := Metadata.toList_extract_window d 0 signature.length
  rw [Nat.zero_add, List.drop_zero] at front
  rw [startsWith, beq_iff_eq, front, List.prefix_iff_eq_take]
  exact eq_comm

namespace Metadata

open Image

/-- Where a field of the CLI header stands in the file. -/
def cliFieldOffset (h : Header) (field : Nat) : Nat :=
  h.map.offset (saturatingAdvance (h.directory cliDirectory).address field)

/-- The file has these headers, and the root for its metadata: there is a directory for the CLI
header, which names the address of the root and its size. -/
structure Wraps (d : Octets) (h : Header) (root : Octets) : Prop where
  headers : Header.read d = .ok h
  present : (h.directory cliDirectory).isPresent = true
  fits : root.size < UInt32.size
  named : ∃ address : UInt32,
    d.Holds ⟨cliFieldOffset h 8, toLittleEndian 4 address.toNat⟩ ∧
      d.Holds ⟨cliFieldOffset h 12, toLittleEndian 4 root.size⟩ ∧
        d.Holds ⟨h.map.offset address, root.toList⟩

variable {d root : Octets} {h : Header}

theorem cliField_of_holds {field n : Nat} (fits : n < UInt32.size)
    (held : d.Holds ⟨cliFieldOffset h field, toLittleEndian 4 n⟩) :
    cliField (h.view d) (h.directory cliDirectory).address field = .ok (UInt32.ofNat n) := by
  have read : d.number (cliFieldOffset h field) 4 = .ok n :=
    Octets.number_of_holds held (by decide) fits
  have word : (h.view d).dword (saturatingAdvance (h.directory cliDirectory).address field) =
      .ok (UInt32.ofNat n) := by
    change UInt32.ofNat <$> d.number (cliFieldOffset h field) 4 = _
    rw [read]
    rfl
  rw [cliField, word]

/-- No file begins both like metadata and like an image. -/
theorem not_signed_of_dos (dos : Header.dosSignature <+: d.toList) : ¬signature <+: d.toList := by
  intro signed
  obtain ⟨behind, whole⟩ := dos
  obtain ⟨behind', whole'⟩ := signed
  exact absurd (List.cons.inj (whole.trans whole'.symm)).1 (by decide)

theorem locate_of_wraps (wraps : Wraps d h root) (filled : root ≠ #[]) : locate d = .ok root := by
  obtain ⟨address, addressed, sized, held⟩ := wraps.named
  have image := Octets.startsWith_iff_prefix.mp (Header.complete_of_read wraps.headers).dos
  have bare : ¬d.startsWith signature = true := fun signed =>
    not_signed_of_dos image (Octets.startsWith_iff_prefix.mp signed)
  have first := cliField_of_holds address.toNat_lt addressed
  have second := cliField_of_holds wraps.fits sized
  have size : (UInt32.ofNat root.size).toNat = root.size := UInt32.toNat_ofNat_of_lt wraps.fits
  have slice : (h.view d).slice address root.size = .ok root :=
    Octets.slice_of_holds held fun empty => filled (Array.toList_inj.mp empty)
  rw [UInt32.ofNat_toNat] at first
  rw [locate, if_neg bare, wraps.headers]
  simp only [wraps.present, Bool.not_true, Bool.false_eq_true, ↓reduceIte, metadataAddressOffset,
    metadataSizeOffset, first, second, size, slice, bind, Except.bind]
  rfl

theorem isMetadata_iff : isMetadata d = true ↔
    signature <+: d.toList ∨ Header.dosSignature <+: d.toList := by
  rw [isMetadata, Bool.or_eq_true, Octets.startsWith_iff_prefix, Octets.startsWith_iff_prefix]

/-- A file that begins neither like metadata nor like an image has none. -/
theorem locate_of_not_isMetadata (other : isMetadata d = false) :
    ∃ defect, locate d = .error (.metadata defect) := by
  rw [isMetadata, Bool.or_eq_false_iff] at other
  rw [locate, if_neg (Bool.eq_false_iff.mp other.1)]
  cases headers : Header.read d with
  | error f => exact ⟨_, rfl⟩
  | ok h => exact absurd (Header.complete_of_read headers).dos (Bool.eq_false_iff.mp other.2)

theorem locate_of_signed (signed : signature <+: root.toList) : locate root = .ok root := by
  rw [locate, if_pos (Octets.startsWith_iff_prefix.mpr signed)]

/-- An image with the root in it, wherever its sections put the parts, and the root by itself give
the same catalog or the same fault. -/
theorem catalogOf_wrapped (signed : [0x42, 0x53, 0x4a, 0x42] <+: root.toList)
    (wraps : Wraps d h root) : Program.catalogOf d = Program.catalogOf root := by
  have filled : root ≠ #[] := by
    rintro rfl
    exact absurd signed (by decide)
  rw [Program.catalogOf, Program.catalogOf, locate_of_wraps wraps filled, locate_of_signed signed]

/-! ## Writing an image around a root -/

/-- The two fields of the CLI header that name a root. -/
def cliFields (h : Header) (address : UInt32) (root : Octets) : Part :=
  ⟨cliFieldOffset h 8, toLittleEndian 4 address.toNat ++ toLittleEndian 4 root.size⟩

def rootPart (h : Header) (address : UInt32) (root : Octets) : Part :=
  ⟨h.map.offset address, root.toList⟩

def wrappingParts (c : HeaderContent) (address : UInt32) (root : Octets) : List Part :=
  c.parts ++ [cliFields c.header address root, rootPart c.header address root]

/-- A file with an image around the root written into it. -/
def wrapped (c : HeaderContent) (base : Octets) (address : UInt32) (root : Octets) : Octets :=
  base.overlay (wrappingParts c address root)

section
variable {c : HeaderContent} {base : Octets} {address : UInt32}
  (behind : c.stop ≤ (cliFields c.header address root).offset)
  (before : (cliFields c.header address root).Before (rootPart c.header address root))

include behind before in
theorem ordered_wrappingParts : (wrappingParts c address root).Pairwise Part.Before := by
  refine List.pairwise_append.mpr ⟨c.ordered_parts, by simpa using before, ?_⟩
  intro p listed q later
  have first : p.Before (cliFields c.header address root) :=
    Nat.le_trans (c.stop_le_of_mem_parts listed) behind
  rcases List.mem_pair.mp later with rfl | rfl
  · exact first
  · exact Trans.trans first before

variable (inside : (rootPart c.header address root).stop ≤ base.size)

include behind before inside in
theorem inside_wrappingParts : ∀ p ∈ wrappingParts c address root, p.stop ≤ base.size := by
  have fields : (cliFields c.header address root).stop ≤ base.size :=
    Nat.le_trans before (Nat.le_trans (Nat.le_add_right ..) inside)
  intro p listed
  rcases List.mem_append.mp listed with header | later
  · have front := c.stop_le_of_mem_parts header
    exact Nat.le_trans front (Nat.le_trans behind (Nat.le_trans (Nat.le_add_right ..) fields))
  · rcases List.mem_pair.mp later with rfl | rfl
    · exact fields
    · exact inside

include behind before inside in
/-- The root is wrapped where the file has room for it behind the CLI header, and for that behind
the other headers. -/
theorem wraps_wrapped (present : (c.header.directory cliDirectory).isPresent = true)
    (fits : root.size < UInt32.size)
    (adjacent : cliFieldOffset c.header 12 = cliFieldOffset c.header 8 + 4) :
    Wraps (wrapped c base address root) c.header root := by
  have within := inside_wrappingParts behind before inside
  have held : ∀ p ∈ wrappingParts c address root, (wrapped c base address root).Holds p :=
    Octets.holds_overlay (ordered_wrappingParts behind before) within
  have headers : ∀ p ∈ c.parts, (wrapped c base address root).Holds p := fun p listed =>
    held p (List.mem_append_left _ listed)
  have large : c.stop ≤ (wrapped c base address root).size := by
    have fields := within (cliFields c.header address root) (by simp [wrappingParts])
    rw [wrapped, Octets.size_overlay within]
    exact Nat.le_trans behind (Nat.le_trans (Nat.le_add_right ..) fields)
  have known := (HeaderContent.extent_of_holds headers).2.2.2 ▸ c.format.ofMagic?_magic
  obtain ⟨addressed, sized⟩ :=
    Octets.Holds.append (held (cliFields c.header address root) (by simp [wrappingParts]))
  rw [length_toLittleEndian, ← adjacent] at sized
  refine ⟨?_, present, fits, address, addressed, sized, held _ (by simp [wrappingParts, rootPart])⟩
  rw [Header.read_of_complete (HeaderContent.complete_of_holds headers large) known,
    HeaderContent.stated_of_holds headers]

end

/-- Metadata whose tables are all empty. -/
def emptyRoot : Octets :=
  ⟨[0x42, 0x53, 0x4a, 0x42, 1, 0, 1, 0, 0, 0, 0, 0, 4, 0, 0, 0, 0x76, 0x34, 0, 0, 0, 0, 1, 0] ++
    [36, 0, 0, 0, 24, 0, 0, 0, 0x23, 0x7e, 0, 0] ++
    [0, 0, 0, 0, 2, 0, 0, 1] ++ List.replicate 16 0⟩

/-- A 64-bit image with the CLI header in its first section and the metadata in its second. -/
def twoSections : HeaderContent where
  start := 128
  machine := 0x8664
  format := .pe32Plus
  imageBase := 0x140000000
  osVersion := ⟨6, 0⟩
  subsystemVersion := ⟨6, 0⟩
  headerSize := 0x200
  subsystem := 3
  optionalSize := 232
  declared := 15
  directories := List.replicate 14 .empty ++ [⟨0x1008, 72⟩]
  sections :=
    [⟨Vector.replicate 8 0x2e, ⟨0x1000, 0x100, 0x100, 0x200⟩, Vector.replicate 16 0⟩,
     ⟨Vector.replicate 8 0x2e, ⟨0x2000, 0x100, 0x100, 0x300⟩, Vector.replicate 16 0⟩]
  behindDos := by decide
  based := by decide
  room := by decide
  filled := by decide
  few := by decide

theorem catalogOf_wrapped_emptyRoot :
    let image := wrapped twoSections (Array.replicate 0x400 0) 0x2004 emptyRoot
    [0x42, 0x53, 0x4a, 0x42] <+: emptyRoot.toList ∧ Wraps image twoSections.header emptyRoot ∧
      Program.catalogOf image = Program.catalogOf emptyRoot ∧
        (Program.catalogOf image).toOption.map Catalog.declared = some 0 := by
  intro image
  have signed : [0x42, 0x53, 0x4a, 0x42] <+: emptyRoot.toList := by decide +kernel
  have wraps : Wraps image twoSections.header emptyRoot :=
    wraps_wrapped (by decide) (show _ ≤ _ by decide) (by rw [Array.size_replicate]; decide)
      (by decide) (by decide) (by decide)
  have same := catalogOf_wrapped signed wraps
  refine ⟨signed, wraps, same, ?_⟩
  rw [same]
  decide +kernel

end Metadata

end WinFloor
