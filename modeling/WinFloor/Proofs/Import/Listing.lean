import WinFloor.Proofs.Image.Overlay
import WinFloor.Proofs.Import.Layout
import WinFloor.Proofs.Import.Steps
import WinFloor.Proofs.Import.SymbolList
import WinFloor.Proofs.Metadata.Heaps
import WinFloor.Proofs.Metadata.TableRows

/-!
A walk over import directories that are laid out in a file. Each part is read back where it stands,
a slot (`slotAt_of_holds`), a table (`readFrom_of_holds`), an entry (`entryAt_of_holds`) and a
directory (`symbolsFrom_of_holds`), so that the walk lists the symbols of both directories in their
order, each once (`walk_of_laid`).
-/
namespace WinFloor

open Image

namespace Octets

variable {d : Octets} {offset : Nat}

theorem name_eq_of_prefix {bs : List UInt8} (h : bs ++ [0] <+: d.toList.drop offset)
    (ended : 0 ∉ bs) : d.name offset = .ok (Text.Utf8.lenient bs) := by
  obtain ⟨behind, whole⟩ := h
  rw [List.append_assoc, List.singleton_append] at whole
  have found := Metadata.zeroFrom?_eq whole.symm ended
  have inside := zeroFrom?_eq_some found
  have octets : (d.extract offset (offset + bs.length)).toList = bs := by
    rw [Metadata.toList_extract_window, ← whole, List.take_left]
  rw [name, if_pos (by omega), found]
  simp only [octets]

end Octets

/-- Where the address leads to, the octets are a part of the file. -/
theorem Image.View.Holds.part {v : View} {address : Nat} {bs : List UInt8}
    (h : v.Holds address bs) : v.data.Holds ⟨v.map.offset (UInt32.ofNat address), bs⟩ :=
  h.2

namespace Import

/-! ## Symbol tables -/

theorem advance?_ofNat {address n : Nat} (fits : address + n < UInt32.size) :
    advance? (UInt32.ofNat address) n = some (UInt32.ofNat (address + n)) := by
  have here : (UInt32.ofNat address).toNat = address := by
    have smaller : address < UInt32.size := Nat.lt_of_le_of_lt (Nat.le_add_right ..) fits
    rw [UInt32.toNat_ofNat', Nat.mod_eq_of_lt smaller]
  rw [advance?, here, if_pos fits]

theorem toLittleEndian_zero (width : Nat) : toLittleEndian width 0 = List.replicate width 0 := by
  induction width with
  | zero => rfl
  | succ width ih =>
    rw [toLittleEndian, ih]
    rfl

section
variable {v : View} {format : Format} {address : Nat}

theorem slotAt_end (h : v.Holds address (List.replicate (slotSize format) 0)) :
    slotAt v format .relative (UInt32.ofNat address) = .last := by
  rw [← toLittleEndian_zero] at h
  have bound : 0 < 1 <<< (8 * slotSize format) := by cases format <;> decide
  rw [slotAt, Octets.number_of_holds h.part (slotSize_pos format) bound]
  rfl

theorem TableSlot.value_lt (slot : TableSlot format) :
    slot.value < 1 <<< (8 * slotSize format) := by
  cases slot with
  | ordinal value fits => exact fits
  | named value fits => exact fits

theorem TableSlot.value_ne_zero (slot : TableSlot format) : slot.value ≠ 0 := by
  cases slot with
  | ordinal value fits flagged =>
    rintro rfl
    simp at flagged
  | named value fits unflagged nonzero => exact nonzero

theorem hintAddress?_relative {value : Nat} (fits : value < 1 <<< (8 * slotSize format)) :
    Addressing.relative.hintAddress? format value =
      some (UInt32.ofNat (hintAddress format value)) := by
  cases format with
  | pe32 =>
    have narrow : value < UInt32.size := fits
    simp only [Addressing.hintAddress?, Addressing.toRelative?, Addressing.toRelative?.narrow,
      if_pos narrow, hintAddress]
  | pe32Plus => rfl

theorem slot_of_nameHolds (slot : TableSlot format) (h : slot.NameHolds v) :
    (Thunk.ofValue format slot.value).slot v format .relative = .symbol slot.name := by
  cases slot with
  | ordinal value fits flagged =>
    rw [TableSlot.value, Thunk.ofValue, if_pos flagged]
    rfl
  | named value fits unflagged nonzero text ended =>
    have next := advance?_ofNat (n := hintSize) h.1
    have name : v.name (UInt32.ofNat (hintAddress format value + hintSize)) = _ :=
      Octets.name_eq_of_prefix h.2 ended
    rw [TableSlot.value, Thunk.ofValue, if_neg (by simp [unflagged]), Thunk.slot,
      hintAddress?_relative fits, Option.bind_some, next]
    simp only [name]
    rfl

theorem slotAt_of_holds (slot : TableSlot format)
    (h : v.Holds address (toLittleEndian (slotSize format) slot.value)) (named : slot.NameHolds v) :
    slotAt v format .relative (UInt32.ofNat address) = .symbol slot.name := by
  rw [slotAt, Octets.number_of_holds h.part (slotSize_pos format) slot.value_lt]
  split
  next failed => cases failed
  next zero => exact absurd (Except.ok.inj zero) slot.value_ne_zero
  next value _ same =>
    rw [← Except.ok.inj same]
    exact slot_of_nameHolds slot named

theorem TableHolds.inside {slots : List (TableSlot format)} (h : TableHolds v address slots) :
    address < UInt32.size := by
  cases slots with
  | nil => exact h.1
  | cons slot rest => exact h.1.1

theorem readFrom_of_holds {slots : List (TableSlot format)} (h : TableHolds v address slots)
    (names : Array SymbolName) :
    Table.readFrom v format .relative names (UInt32.ofNat address) =
      ⟨names ++ (slots.map TableSlot.name).toArray, true⟩ := by
  induction slots generalizing address names with
  | nil =>
    rw [Table.readFrom_eq, slotAt_end h]
    simp
  | cons slot rest ih =>
    obtain ⟨here, named, behind⟩ := h
    -- Something stands behind the slot, so the address there is one of 32 bits.
    rw [Table.readFrom_eq, slotAt_of_holds slot here named]
    simp only [advance?_ofNat behind.inside, ih behind]
    simp

end

/-! ## Entries -/

theorem length_dwords (words : List UInt32) : (dwords words).length = 4 * words.length := by
  induction words with
  | nil => rfl
  | cons w words ih =>
    rw [dwords, List.flatMap_cons, List.length_append, length_toLittleEndian, ← dwords, ih,
      List.length_cons]
    omega

theorem fields_dwords (words : List UInt32) :
    fields (dwords words).toArray words.length = words := by
  have sized : ∀ w ∈ words, (toLittleEndian 4 w.toNat).length = 4 :=
    fun w _ => length_toLittleEndian ..
  apply List.ext_getElem
  · simp [fields]
  · intro i _ inside
    obtain ⟨rest, block⟩ := Metadata.drop_block sized [] inside
    rw [List.append_nil, Nat.mul_comm] at block
    have octets : ((dwords words).toArray.extract (4 * i) (4 * i + 4)).toList =
        toLittleEndian 4 words[i].toNat := by
      rw [Metadata.toList_extract_window, List.toList_toArray, dwords, block,
        List.take_append_of_le_length (by simp), List.take_of_length_le (by simp)]
    simp only [fields, List.getElem_map, List.getElem_range]
    rw [octets, littleEndian_toLittleEndian words[i].toNat_lt, UInt32.ofNat_toNat]

section
variable {v : View} {address : Nat} {source : Source}

theorem slice_of_holds {words : List UInt32} (h : v.Holds address (dwords words))
    (some : words ≠ []) :
    v.slice (UInt32.ofNat address) (4 * words.length) = .ok (dwords words).toArray := by
  have filled : dwords words ≠ [] := by
    rw [← List.length_pos_iff, length_dwords]
    have := List.length_pos_iff.mpr some
    omega
  have read := Octets.slice_of_holds h.part filled
  rw [length_dwords] at read
  exact read

theorem Descriptor.read_of_holds {d : Descriptor} (h : v.Holds address d.octets) :
    Descriptor.read v (UInt32.ofNat address) = .ok d := by
  have octets : v.slice (UInt32.ofNat address) size = .ok d.octets.toArray :=
    slice_of_holds h (List.cons_ne_nil _ _)
  have words : fields d.octets.toArray 5 = _ := fields_dwords _
  rw [read, octets]
  simp only [bind, Except.bind, words]
  rfl

theorem DelayDescriptor.read_of_holds {d : DelayDescriptor} (h : v.Holds address d.octets) :
    DelayDescriptor.read v (UInt32.ofNat address) = .ok d := by
  have octets : v.slice (UInt32.ofNat address) size = .ok d.octets.toArray :=
    slice_of_holds h (List.cons_ne_nil _ _)
  have words : fields d.octets.toArray 8 = _ := fields_dwords _
  rw [read, octets]
  simp only [bind, Except.bind, words]
  rfl

theorem toRelative?_relative (pointer : UInt32) :
    Addressing.relative.toRelative? pointer.toNat = some pointer := by
  have narrow : pointer.toNat < UInt32.size := pointer.toNat_lt
  simp only [Addressing.toRelative?, Addressing.toRelative?.narrow, if_pos narrow,
    UInt32.ofNat_toNat]

theorem entryAt_end (h : Header) (zeros : v.Holds address (List.replicate source.entrySize 0)) :
    source.entryAt h v (UInt32.ofNat address) = .ok none := by
  cases source with
  | classic =>
    have null : Descriptor.read v (UInt32.ofNat address) = .ok .null :=
      Descriptor.read_of_holds zeros
    rw [Source.entryAt, null]
    rfl
  | delayed =>
    have null : DelayDescriptor.read v (UInt32.ofNat address) = .ok .null :=
      DelayDescriptor.read_of_holds zeros
    rw [Source.entryAt, null]
    rfl

theorem entryAt_of_holds (h : Header) (e : RelativeEntry source)
    (there : v.Holds address e.octets) (named : e.moduleName ≠ 0) :
    source.entryAt h v (UInt32.ofNat address) =
      .ok (some ⟨e.moduleName, e.symbolTable, .relative⟩) := by
  cases e with
  | classic d =>
    -- An entry that names its module is not taken for the end.
    have apart : d ≠ .null := by
      rintro rfl
      exact named rfl
    rw [Source.entryAt, Descriptor.read_of_holds there]
    simp only [bind, Except.bind, if_neg apart]
    rfl
  | delayed d relative =>
    have apart : d ≠ .null := by
      rintro rfl
      exact named rfl
    rw [Source.entryAt, DelayDescriptor.read_of_holds there]
    simp only [bind, Except.bind, if_neg apart, relative, if_true, toRelative?_relative]
    rfl

end

/-! ## Directories -/

section
variable {h : Header} {v : View} {source : Source} {address : Nat}

theorem entryYield_of_holds {m : ModuleEntry source h.format}
    (entry : v.Holds address m.entry.octets)
    (name : v.Holds m.entry.moduleName.toNat (m.moduleName ++ [0]))
    (table : TableHolds v m.entry.symbolTable.toNat m.slots) :
    entryYield source h v (UInt32.ofNat address) = ⟨m.symbols, true⟩ := by
  have spelled : v.name m.entry.moduleName = .ok (Text.Utf8.lenient m.moduleName) := by
    have read := Octets.name_eq_of_prefix name.2 m.ended
    rw [UInt32.ofNat_toNat] at read
    exact read
  have slots : Table.read v h.format .relative m.entry.symbolTable =
      ⟨(m.slots.map TableSlot.name).toArray, true⟩ := by
    have read := readFrom_of_holds table #[]
    rw [UInt32.ofNat_toNat] at read
    rw [Table.read, if_neg m.tabled, read, Array.empty_append]
  rw [entryYield, entryAt_of_holds h m.entry entry m.named]
  simp only [if_neg m.named, spelled, slots, List.map_map, ModuleEntry.symbols]
  rfl

theorem DirectoryHolds.inside {modules : List (ModuleEntry source h.format)}
    (laid : DirectoryHolds v address modules) : address < UInt32.size := by
  cases modules with
  | nil => exact laid.1
  | cons m rest => exact laid.1.1

theorem symbolsFrom_of_holds {modules : List (ModuleEntry source h.format)}
    (laid : DirectoryHolds v address modules) :
    symbolsFrom source h v (UInt32.ofNat address) = modules.flatMap ModuleEntry.symbols := by
  induction modules generalizing address with
  | nil =>
    rw [symbolsFrom_eq, entryYield, entryAt_end h laid]
    rfl
  | cons m rest ih =>
    obtain ⟨entry, name, table, behind⟩ := laid
    rw [symbolsFrom_eq, entryYield_of_holds entry name table, if_pos rfl,
      advance?_ofNat behind.inside, Option.map_some, Option.getD_some, ih behind,
      List.flatMap_cons]

end

theorem directorySymbols_of_laid {source : Source} {h : Header} {data : Octets}
    {modules : List (ModuleEntry source h.format)} (laid : Laid source h data modules) :
    directorySymbols source h (h.view data) = modules.flatMap ModuleEntry.symbols := by
  rw [directorySymbols_eq]
  unfold Laid at laid
  split at laid
  next present =>
    have found := symbolsFrom_of_holds laid
    rw [UInt32.ofNat_toNat] at found
    rw [if_pos present, found]
  next absent =>
    rw [if_neg absent, laid]
    rfl

/-- The walk lists what the two directories hold, entry by entry and slot by slot: of the symbols
with one key the first, wherever the others stand. -/
theorem walk_of_laid {h : Header} {data : Octets} {classic : List (ModuleEntry .classic h.format)}
    {delayed : List (ModuleEntry .delayed h.format)} (first : Laid .classic h data classic)
    (second : Laid .delayed h data delayed) :
    (walk data h).toList =
      firsts (classic.flatMap ModuleEntry.symbols ++ delayed.flatMap ModuleEntry.symbols) := by
  simp only [walk]
  rw [SymbolList.toList_ofList, directorySymbols_of_laid first, directorySymbols_of_laid second]

/-- An image with one section, whose contents stand behind 16 octets of the file. -/
def bothDirectories : Header where
  machine := 0x8664
  format := .pe32Plus
  imageBase := 0x140000000
  osVersion := ⟨6, 0⟩
  subsystemVersion := ⟨6, 0⟩
  subsystem := 3
  directories := [.empty, ⟨0x1000, 60⟩] ++ List.replicate 11 .empty ++ [⟨0x103c, 64⟩]
  map := ⟨16, [⟨0x1000, 0x1000, 0x1000, 16⟩]⟩

/-- Two modules, of which the first has both tables and the second no lookup table. Of the slots one
has an ordinal and other bits above it, and one an address with bits that do not count. -/
def classicModules : List (ModuleEntry .classic bothDirectories.format) :=
  [{ entry := .classic ⟨0x107c, 0, 0, 0x10bc, 0x1094⟩
     moduleName := [0x61, 0x2e, 0x64, 0x6c, 0x6c]
     slots := [.ordinal 0x8000000000010007 (by decide) (by decide),
       .named 0x7fffffff800010ca (by decide) (by decide) (by decide) [0x47, 0x6f] (by decide)]
     named := by decide
     tabled := by decide
     ended := by decide },
   { entry := .classic ⟨0, 0, 0, 0x10c2, 0x1094⟩
     moduleName := [0x42]
     slots := [.named 0x10cf (by decide) (by decide) (by decide) [0x67, 0x6f] (by decide)]
     named := by decide
     tabled := by decide
     ended := by decide }]

def delayedModules : List (ModuleEntry .delayed bothDirectories.format) :=
  [{ entry := .delayed ⟨1, 0x10c4, 0, 0, 0x10a4, 0, 0, 0⟩ (by decide)
     moduleName := [0x41, 0x2e, 0x44, 0x4c, 0x4c]
     slots := [.named 0x10ca (by decide) (by decide) (by decide) [0x47, 0x6f] (by decide),
       .named 0x10d4 (by decide) (by decide) (by decide) [0x55, 0x70] (by decide)]
     named := by decide
     tabled := by decide
     ended := by decide }]

/-- Both directories, the tables, the names of the modules, and the hints and names. -/
def bothDirectoriesParts : List (List UInt8) :=
  [List.replicate 16 0,
   classicModules.flatMap fun m => m.entry.octets, List.replicate 20 0,
   delayedModules.flatMap fun m => m.entry.octets, List.replicate 32 0,
   [0x8000000000010007, 0x7fffffff800010ca, 0, 0x10cf, 0, 0x10ca, 0x10d4, 0].flatMap
     (toLittleEndian 8),
   [0x61, 0x2e, 0x64, 0x6c, 0x6c, 0, 0x42, 0, 0x41, 0x2e, 0x44, 0x4c, 0x4c, 0],
   [1, 0, 0x47, 0x6f, 0, 2, 0, 0x67, 0x6f, 0, 3, 0, 0x55, 0x70, 0]]

def bothDirectoriesOctets : Octets := bothDirectoriesParts.flatten.toArray

theorem walk_of_laid_bothDirectories :
    Laid .classic bothDirectories bothDirectoriesOctets classicModules ∧
    Laid .delayed bothDirectories bothDirectoriesOctets delayedModules ∧
    (walk bothDirectoriesOctets bothDirectories).toList =
      [⟨"a.dll", .ordinal 7, .classic⟩, ⟨"a.dll", .named "Go", .classic⟩,
       ⟨"B", .named "go", .classic⟩, ⟨"A.DLL", .named "Up", .delayed⟩] := by
  have first : Laid .classic bothDirectories bothDirectoriesOctets classicModules := by
    decide +kernel
  have second : Laid .delayed bothDirectories bothDirectoriesOctets delayedModules := by
    decide +kernel
  refine ⟨first, second, ?_⟩
  rw [walk_of_laid first second]
  decide +kernel

end Import

end WinFloor
