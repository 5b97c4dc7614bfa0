import WinFloor.Proofs.Image.Overlay
import WinFloor.Proofs.Image.Stated

/-!
Headers written into a file, and read back. A `HeaderContent` says what headers hold and how large
their parts are; `HeaderContent.parts` is where each of its fields stands. A file in which these
parts stand states the content (`stated_of_holds`), so that headers written over any file are read
as they were written (`read_overlay`).
-/
namespace WinFloor

namespace Octets

variable {d : Octets} {offset : Nat}

theorem wordAt_of_holds {w : UInt16} (held : d.Holds ⟨offset, toLittleEndian 2 w.toNat⟩) :
    d.wordAt offset = w := by
  rw [wordAt, numberAt_of_holds held w.toNat_lt, UInt16.ofNat_toNat]

theorem dwordAt_of_holds {w : UInt32} (held : d.Holds ⟨offset, toLittleEndian 4 w.toNat⟩) :
    d.dwordAt offset = w := by
  rw [dwordAt, numberAt_of_holds held w.toNat_lt, UInt32.ofNat_toNat]

end Octets

namespace Image

/-- The word that tells the format. -/
def Format.magic : Format → UInt16
  | pe32 => 0x10b
  | pe32Plus => 0x20b

theorem Format.ofMagic?_magic (format : Format) : ofMagic? format.magic = some format := by
  cases format <;> rfl

def Version.octets (v : Version) : List UInt8 :=
  toLittleEndian 2 v.major.toNat ++ toLittleEndian 2 v.minor.toNat

def Directory.octets (d : Directory) : List UInt8 :=
  toLittleEndian 4 d.address.toNat ++ toLittleEndian 4 d.size.toNat

/-- A section header: what it maps, between a name and fields of no use here. -/
structure SectionHeader where
  name : Vector UInt8 8
  mapped : Section
  rest : Vector UInt8 16

def SectionHeader.octets (s : SectionHeader) : List UInt8 :=
  s.name.toList ++ (toLittleEndian 4 s.mapped.memorySize.toNat ++
    (toLittleEndian 4 s.mapped.address.toNat ++ (toLittleEndian 4 s.mapped.fileSize.toNat ++
      (toLittleEndian 4 s.mapped.fileOffset.toNat ++ s.rest.toList))))

/-- What headers are written from. They start behind the fixed header of a DOS program, and the
optional header is filled with as many directories as it has room for, whatever number it declares. -/
structure HeaderContent where
  start : UInt32
  machine : UInt16
  format : Format
  imageBase : UInt64
  osVersion : Version
  subsystemVersion : Version
  headerSize : UInt32
  subsystem : UInt16
  optionalSize : UInt16
  declared : UInt32
  directories : List Directory
  sections : List SectionHeader
  behindDos : 64 ≤ start.toNat
  based : imageBase.toNat < 1 <<< (8 * format.baseSize)
  room : format.directoryOffset ≤ optionalSize.toNat
  filled : directories.length = (optionalSize.toNat - format.directoryOffset) / directorySize
  few : sections.length < 0x10000

namespace HeaderContent

def optionalStart (c : HeaderContent) : Nat := c.start.toNat + 24

/-- Where the sections start. -/
def tableStart (c : HeaderContent) : Nat := c.optionalStart + c.optionalSize.toNat

def stop (c : HeaderContent) : Nat := c.tableStart + sectionHeaderSize * c.sections.length

/-- The fields of the headers, each where it stands in a file. -/
def parts (c : HeaderContent) : List Part :=
  [⟨0, Header.dosSignature⟩,
   ⟨0x3c, toLittleEndian 4 c.start.toNat⟩,
   ⟨c.start.toNat, Header.imageSignature⟩,
   ⟨c.start.toNat + 4, toLittleEndian 2 c.machine.toNat⟩,
   ⟨c.start.toNat + 6, toLittleEndian 2 c.sections.length⟩,
   ⟨c.start.toNat + 20, toLittleEndian 2 c.optionalSize.toNat⟩,
   ⟨c.optionalStart, toLittleEndian 2 c.format.magic.toNat⟩,
   ⟨c.optionalStart + c.format.baseOffset, toLittleEndian c.format.baseSize c.imageBase.toNat⟩,
   ⟨c.optionalStart + 40, c.osVersion.octets⟩,
   ⟨c.optionalStart + 48, c.subsystemVersion.octets⟩,
   ⟨c.optionalStart + 60, toLittleEndian 4 c.headerSize.toNat⟩,
   ⟨c.optionalStart + 68, toLittleEndian 2 c.subsystem.toNat⟩,
   ⟨c.optionalStart + c.format.directoryOffset - 4, toLittleEndian 4 c.declared.toNat⟩,
   ⟨c.optionalStart + c.format.directoryOffset, c.directories.flatMap Directory.octets⟩,
   ⟨c.tableStart, c.sections.flatMap SectionHeader.octets⟩]

/-- The headers as they are read. Of the directories no more count than are declared, and than there
is a meaning for. -/
def header (c : HeaderContent) : Header where
  machine := c.machine
  format := c.format
  imageBase := c.imageBase
  osVersion := c.osVersion
  subsystemVersion := c.subsystemVersion
  subsystem := c.subsystem
  directories := c.directories.take (min c.declared.toNat maxDirectories)
  map := ⟨c.headerSize, c.sections.map SectionHeader.mapped⟩

end HeaderContent

/-! ## Parts -/

@[simp] theorem Version.length_octets (v : Version) : v.octets.length = 4 := by
  simp [octets]

@[simp] theorem Directory.length_octets (d : Directory) : d.octets.length = directorySize := by
  simp [octets, directorySize]

@[simp] theorem SectionHeader.length_octets (s : SectionHeader) :
    s.octets.length = sectionHeaderSize := by
  simp [octets, sectionHeaderSize]

namespace HeaderContent

variable (c : HeaderContent)

/-- The parts follow one another up to the end of the section table. -/
theorem chain_parts : List.IsChain Part.Before (c.parts ++ [⟨c.stop, []⟩]) := by
  have behindDos := c.behindDos
  have room := c.room
  have filled := c.filled
  have least := c.format.least_directoryOffset
  have base : 2 ≤ c.format.baseOffset ∧ c.format.baseOffset + c.format.baseSize ≤ 40 := by
    cases c.format <;> decide
  have dos : Header.dosSignature.length = 2 := rfl
  have image : Header.imageSignature.length = 4 := rfl
  simp only [parts, List.cons_append, List.nil_append, List.isChain_cons_cons,
    List.IsChain.singleton, Part.Before, Part.stop, length_toLittleEndian, Version.length_octets,
    List.length_flatMap, Directory.length_octets, SectionHeader.length_octets, List.map_const',
    List.sum_replicate_nat, stop, tableStart, optionalStart, directorySize, sectionHeaderSize, dos,
    image, and_true]
  rw [directorySize] at filled
  repeat' apply And.intro
  all_goals omega

theorem ordered_parts : c.parts.Pairwise Part.Before :=
  (List.pairwise_append.mp c.chain_parts.pairwise).1

theorem stop_le_of_mem_parts {p : Part} (listed : p ∈ c.parts) : p.stop ≤ c.stop :=
  (List.pairwise_append.mp c.chain_parts.pairwise).2.2 p listed _ (List.mem_singleton_self _)

end HeaderContent

/-! ## Reading back -/

open Octets

variable {d : Octets} {offset : Nat}

theorem statedVersion_of_holds {v : Version} (held : d.Holds ⟨offset, v.octets⟩) :
    Header.statedVersion d offset = v := by
  obtain ⟨major, minor⟩ := held.append
  rw [length_toLittleEndian] at minor
  rw [Header.statedVersion, wordAt_of_holds major, wordAt_of_holds minor]

theorem statedDirectory_of_holds {directory : Directory}
    (held : d.Holds ⟨offset, directory.octets⟩) : Header.statedDirectory d offset = directory := by
  obtain ⟨address, size⟩ := held.append
  rw [length_toLittleEndian] at size
  rw [Header.statedDirectory, dwordAt_of_holds address, dwordAt_of_holds size]

theorem statedSection_of_holds {s : SectionHeader} (held : d.Holds ⟨offset, s.octets⟩) :
    Header.statedSection d offset = s.mapped := by
  obtain ⟨-, held⟩ := held.append
  obtain ⟨memorySize, held⟩ := held.append
  obtain ⟨address, held⟩ := held.append
  obtain ⟨fileSize, held⟩ := held.append
  obtain ⟨fileOffset, -⟩ := held.append
  simp only [Vector.length_toList, length_toLittleEndian, Nat.add_assoc, Nat.reduceAdd]
    at memorySize address fileSize fileOffset
  rw [Header.statedSection, dwordAt_of_holds memorySize, dwordAt_of_holds address,
    dwordAt_of_holds fileSize, dwordAt_of_holds fileOffset]

/-- Items of the same length that stand one behind the other are read one by one. -/
theorem map_range_of_holds {size count : Nat} {written : α → List UInt8} {items : List α}
    {read : Nat → β} {give : α → β} (sized : ∀ a, (written a).length = size)
    (each : ∀ place a, d.Holds ⟨place, written a⟩ → read place = give a)
    (held : d.Holds ⟨offset, items.flatMap written⟩) (few : count ≤ items.length) :
    ((List.range count).map fun i => read (offset + i * size)) = (items.take count).map give := by
  refine List.ext_getElem (by simp [few]) fun i inside inside' => ?_
  simp only [List.length_map, List.length_range] at inside
  simp only [List.getElem_map, List.getElem_range, List.getElem_take]
  exact each _ _ (held.item sized (Nat.lt_of_lt_of_le inside few))

namespace HeaderContent

section
variable {c : HeaderContent} (held : ∀ p ∈ c.parts, d.Holds p)
include held

/-- The headers extend as far as the content says. -/
theorem extent_of_holds : Header.start d = c.start.toNat ∧
    Header.sectionCount d = c.sections.length ∧ Header.optionalSize d = c.optionalSize.toNat ∧
    Header.magic d = c.format.magic := by
  have start : Header.start d = c.start.toNat :=
    numberAt_of_holds (held ⟨0x3c, toLittleEndian 4 c.start.toNat⟩ (by simp [parts]))
      c.start.toNat_lt
  have count : Header.sectionCount d = c.sections.length := by
    rw [Header.sectionCount, start]
    exact numberAt_of_holds (held _ (by simp [parts])) c.few
  have size : Header.optionalSize d = c.optionalSize.toNat := by
    rw [Header.optionalSize, start]
    exact numberAt_of_holds (held _ (by simp [parts])) c.optionalSize.toNat_lt
  have magic : Header.magic d = c.format.magic := by
    rw [Header.magic, Header.optionalStart, start]
    exact wordAt_of_holds (held _ (by simp [parts, optionalStart, coffHeaderSize]))
  exact ⟨start, count, size, magic⟩

theorem complete_of_holds (large : c.stop ≤ d.size) : Header.Complete d := by
  obtain ⟨start, count, size, magic⟩ := extent_of_holds held
  have behindDos := c.behindDos
  have reaches : c.start.toNat ≤ c.stop :=
    Nat.le_trans (Nat.le_add_right _ 24) (Nat.le_trans (Nat.le_add_right ..) (Nat.le_add_right ..))
  have inside : Header.stop d = c.stop := by
    rw [Header.stop, Header.optionalStart, start, size, count, Nat.mul_comm]
    rfl
  refine ⟨by omega, ?_, ?_, ⟨c.format, magic ▸ c.format.ofMagic?_magic, size.symm ▸ c.room⟩,
    inside.symm ▸ large⟩
  · have signature := extract_of_holds (held ⟨0, Header.dosSignature⟩ (by simp [parts]))
    rw [Nat.zero_add] at signature
    exact beq_iff_eq.mpr signature
  · rw [start]
    exact extract_of_holds (held ⟨c.start.toNat, Header.imageSignature⟩ (by simp [parts]))

theorem stated_of_holds : Header.stated d c.format = c.header := by
  obtain ⟨start, count, size, -⟩ := extent_of_holds held
  have optional : Header.optionalStart d = c.optionalStart := by
    rw [Header.optionalStart, start]
    rfl
  have machine : d.wordAt (c.start.toNat + 4) = c.machine :=
    wordAt_of_holds (held _ (by simp [parts]))
  have base : d.numberAt (c.optionalStart + c.format.baseOffset) c.format.baseSize =
      c.imageBase.toNat := numberAt_of_holds (held _ (by simp [parts])) c.based
  have osVersion : Header.statedVersion d (c.optionalStart + 40) = c.osVersion :=
    statedVersion_of_holds (held _ (by simp [parts]))
  have subsystemVersion :
      Header.statedVersion d (c.optionalStart + 48) = c.subsystemVersion :=
    statedVersion_of_holds (held _ (by simp [parts]))
  have headerSize : d.dwordAt (c.optionalStart + 60) = c.headerSize :=
    dwordAt_of_holds (held _ (by simp [parts]))
  have subsystem : d.wordAt (c.optionalStart + 68) = c.subsystem :=
    wordAt_of_holds (held _ (by simp [parts]))
  have declared : d.dwordAt (c.optionalStart + c.format.directoryOffset - 4) = c.declared :=
    dwordAt_of_holds (held _ (by simp [parts]))
  have total : Header.directoryTotal d c.format =
      min (min c.declared.toNat maxDirectories) c.directories.length := by
    rw [Header.directoryTotal, optional, declared, size, c.filled, Header.directoryCount]
  have directories : Header.statedDirectories d (c.optionalStart + c.format.directoryOffset)
      (min (min c.declared.toNat maxDirectories) c.directories.length) =
        c.directories.take (min c.declared.toNat maxDirectories) := by
    rw [List.take_eq_take_min]
    exact (map_range_of_holds Directory.length_octets (fun _ _ => statedDirectory_of_holds)
      (held _ (by simp [parts])) (Nat.min_le_right ..)).trans (List.map_id _)
  have sections : Header.statedSections d c.tableStart c.sections.length =
      c.sections.map SectionHeader.mapped := by
    have all : Header.statedSections d c.tableStart c.sections.length = _ :=
      map_range_of_holds SectionHeader.length_octets (fun _ _ => statedSection_of_holds)
        (held ⟨_, c.sections.flatMap SectionHeader.octets⟩ (by simp [parts])) (Nat.le_refl _)
    rwa [List.take_length] at all
  rw [Header.stated, start, optional, count, size, machine, base, osVersion, subsystemVersion,
    headerSize, subsystem, total, directories, UInt64.ofNat_toNat]
  exact congrArg (fun s => { c.header with map := ⟨c.headerSize, s⟩ }) sections

end

end HeaderContent

end Image

end WinFloor
