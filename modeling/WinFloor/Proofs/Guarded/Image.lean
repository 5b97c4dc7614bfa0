import WinFloor.Metadata.Wrapper
import WinFloor.Proofs.Guarded.Run

/-!
Finding metadata in a PE image, with every operation guarded. The headers place their fields by
sums that cannot leave a word (`sound_header`), and so does a section the addresses it claims
(`fileOffset_eq`).
-/
namespace WinFloor.Guarded

open Image

/-! ## Addresses -/

def contains (s : Section) (address : UInt32) : Run Bool := do
  let stop ← sum wordBound s.address.toNat s.extent
  return s.address.toNat ≤ address.toNat && address.toNat < stop

/-- The first section that claims an address. -/
def sectionOf (address : UInt32) : List Section → Run (Option Section)
  | [] => return none
  | s :: rest => do
    if ← contains s address then return some s else sectionOf address rest

def fileOffset (m : SectionMap) (address : UInt32) : Run Nat :=
  if address < m.headerSize then return address.toNat
  else do
    match ← sectionOf address m.sections with
    | some s => sum wordBound (← difference address.toNat s.address.toNat) s.fileOffset.toNat
    | none => return address.toNat

theorem contains_eq (s : Section) (address : UInt32) :
    contains s address = .ok (s.contains address) := by
  have start := s.address.toNat_lt
  have memory := s.memorySize.toNat_lt
  have file := s.fileSize.toNat_lt
  rw [contains, sum_eq (by rw [wordBound, Section.extent]; omega)]
  rfl

theorem sectionOf_eq (address : UInt32) (sections : List Section) :
    sectionOf address sections = .ok (sections.find? (·.contains address)) := by
  induction sections with
  | nil => rfl
  | cons s rest ih =>
    rw [sectionOf, contains_eq, ok_bind, ih, List.find?_cons]
    cases s.contains address <;> rfl

theorem fileOffset_eq (m : SectionMap) (address : UInt32) :
    fileOffset m address = .ok (m.offset address) := by
  rw [fileOffset, SectionMap.offset]
  by_cases header : address < m.headerSize
  · rw [if_pos header, if_pos header]
    rfl
  · rw [if_neg header, if_neg header, sectionOf_eq, ok_bind]
    cases found : m.sections.find? (·.contains address) with
    | none => rfl
    | some s =>
      have claimed : s.contains address = true := by simpa using List.find?_some found
      simp only [Section.contains, Bool.and_eq_true, decide_eq_true_eq] at claimed
      have place := s.fileOffset.toNat_lt
      have bound := address.toNat_lt
      simp only [difference_eq claimed.1, ok_bind]
      exact sum_eq (by rw [wordBound]; omega)

/-! ## Headers -/

def wordPast (d : Octets) (base n : Nat) : Run UInt16 := do word d (← sum wordBound base n)
def dwordPast (d : Octets) (base n : Nat) : Run UInt32 := do dword d (← sum wordBound base n)

def versionPast (d : Octets) (base n : Nat) : Run Version := do
  return ⟨← wordPast d base n, ← wordPast d base (n + 2)⟩

def directoryAt (d : Octets) (offset : Nat) : Run Directory := do
  return ⟨← dword d offset, ← dwordPast d offset 4⟩

def sectionAt (d : Octets) (offset index count : Nat) : Run Section := do
  if (← sum wordBound offset sectionHeaderSize) ≤ d.size then
    let memorySize ← dwordPast d offset 8
    let address ← dwordPast d offset 12
    let fileSize ← dwordPast d offset 16
    let fileOffset ← dwordPast d offset 20
    return { address, memorySize, fileSize, fileOffset }
  else throw (.fault (.image (.sectionTableTruncated index count)))

def imageBaseOf (d : Octets) (format : Format) (offset : Nat) : Run UInt64 := do
  match format with
  | .pe32 => UInt64.ofNat <$> number d (← sum wordBound offset 28) 4
  | .pe32Plus => qword d (← sum wordBound offset 24)

def ofOptional (d : Octets) (machine : UInt16) (format : Format)
    (offset optionalSize sectionCount : Nat) : Run Header := do
  let imageBase ← imageBaseOf d format offset
  let osVersion ← versionPast d offset 40
  let subsystemVersion ← versionPast d offset 48
  let headerSize ← dwordPast d offset 60
  let subsystem ← wordPast d offset 68
  let directoryBase ← sum wordBound offset format.directoryOffset
  let declared ← dword d (← difference directoryBase 4)
  let room ← difference optionalSize format.directoryOffset
  let count := min (min declared.toNat maxDirectories) (room / directorySize)
  let directories ← (List.range count).mapM fun i => do
    directoryAt d (← sum wordBound directoryBase (← product wordBound i directorySize))
  let sectionBase ← sum wordBound offset optionalSize
  let sections ← (List.range sectionCount).mapM fun i => do
    sectionAt d (← sum wordBound sectionBase (← product wordBound i sectionHeaderSize)) i
      sectionCount
  return { machine, format, imageBase, osVersion, subsystemVersion, subsystem, directories,
           map := ⟨headerSize, sections⟩ }

def header (d : Octets) : Run Header := do
  if d.size < 64 then throw (.fault .dosSignature)
  let first ← slice d 0 2
  if first.toList ≠ Header.dosSignature then throw (.fault .dosSignature)
  let start ← UInt32.toNat <$> dword d 0x3c
  let signature ← orFault (checkedSlice d start 4) .imageSignature
  if signature.toList ≠ Header.imageSignature then throw (.fault .imageSignature)
  let coff ← sum wordBound start 4
  let machine ← orFault (word d coff) (.image .coffHeaderTruncated)
  let sectionCount ← UInt16.toNat <$> orFault (wordPast d coff 2) (.image .coffHeaderTruncated)
  let optionalSize ← UInt16.toNat <$> orFault (wordPast d coff 16) (.image .coffHeaderTruncated)
  let optional ← sum wordBound coff coffHeaderSize
  let magic ← orFault (word d optional) (.image .optionalHeaderTruncated)
  match Format.ofMagic? magic with
  | none => throw (.fault (.optionalHeaderMagic magic))
  | some format =>
    if optionalSize < format.directoryOffset then
      throw (.fault (.image (.optionalHeaderTooSmall optionalSize)))
    if d.size < (← sum wordBound optional optionalSize) then
      throw (.fault (.image .optionalHeaderTruncated))
    ofOptional d machine format optional optionalSize sectionCount

/-! ## The metadata of an image -/

def cliField (v : View) (address : UInt32) (offset : Nat) : Run UInt32 :=
  orFault (do dword v.data (← fileOffset v.map (Metadata.saturatingAdvance address offset)))
    (.metadata .cliHeaderTruncated)

def metadataSlice (v : View) (address size : UInt32) : Run Octets :=
  orFault (do checkedSlice v.data (← fileOffset v.map address) size.toNat)
    (.metadata .directoryOutOfBounds)

def locate (d : Octets) : Run Octets :=
  if d.startsWith Metadata.signature then return d
  else
    match header d with
    | .error .outOfRange => throw .outOfRange
    | .error (.fault f) => throw (.fault (.metadata (.wrapper f.message)))
    | .ok header => do
      let cli := header.directory cliDirectory
      if !cli.isPresent then throw (.fault (.metadata .noCliHeader))
      let view := header.view d
      let address ← cliField view cli.address Metadata.metadataAddressOffset
      let size ← cliField view cli.address Metadata.metadataSizeOffset
      metadataSlice view address size

/-! ## Soundness -/

theorem sound_wordOr {d : Octets} {g : Run UInt16} {offset : Nat} (h : Sound g (d.word offset))
    (defect : ImageDefect) :
    Sound (orFault g (.image defect)) (Header.wordOr d offset defect) := by
  rw [h, Header.wordOr]
  cases d.word offset <;> rfl

theorem lt_of_map_dword {r : Except Fault UInt32} {n : Nat} (h : UInt32.toNat <$> r = .ok n) :
    n < 0x100000000 := by
  cases r with
  | error f => cases h
  | ok v =>
    cases h
    exact v.toNat_lt

theorem lt_of_map_word {r : Except Fault UInt16} {n : Nat} (h : UInt16.toNat <$> r = .ok n) :
    n < 0x10000 := by
  cases r with
  | error f => cases h
  | ok v =>
    cases h
    exact v.toNat_lt

section

variable {d : Octets} (small : d.size < memoryBound)
include small

theorem sound_wordPast {base n : Nat} (h : base + n < wordBound) :
    Sound (wordPast d base n) (d.word (base + n)) := by
  rw [wordPast, sum_eq h, ok_bind]
  exact sound_word small _

theorem sound_dwordPast {base n : Nat} (h : base + n < wordBound) :
    Sound (dwordPast d base n) (d.dword (base + n)) := by
  rw [dwordPast, sum_eq h, ok_bind]
  exact sound_dword small _

theorem sound_versionPast {base n : Nat} (h : base + n + 2 < wordBound) :
    Sound (versionPast d base n) (Header.versionAt d (base + n)) := by
  apply (sound_wordPast small (by omega)).bind
  intro major _
  apply (sound_wordPast small (n := n + 2) h).bind
  intro minor _
  exact .ok _

theorem sound_directoryAt {offset : Nat} (h : offset + 4 < wordBound) :
    Sound (directoryAt d offset) (Header.directoryAt d offset) := by
  apply (sound_dword small offset).bind
  intro address _
  apply (sound_dwordPast small h).bind
  intro size _
  exact .ok _

theorem sound_sectionAt {offset index count : Nat} (h : offset + sectionHeaderSize < wordBound) :
    Sound (sectionAt d offset index count) (Header.sectionAt d offset index count) := by
  rw [sectionAt, Header.sectionAt, sum_eq h, ok_bind]
  rw [sectionHeaderSize, wordBound] at h
  split
  next =>
    apply (sound_dwordPast small (by rw [wordBound]; omega)).bind
    intro memorySize _
    apply (sound_dwordPast small (by rw [wordBound]; omega)).bind
    intro address _
    apply (sound_dwordPast small (by rw [wordBound]; omega)).bind
    intro fileSize _
    apply (sound_dwordPast small (by rw [wordBound]; omega)).bind
    intro fileOffset _
    exact .ok _
  next => exact .error _

theorem sound_imageBase {offset : Nat} (h : offset + 28 < wordBound) (format : Format)
    {next : UInt64 → Run α} {rest : UInt64 → Except Fault α}
    (after : ∀ imageBase, Sound (next imageBase) (rest imageBase)) :
    Sound (imageBaseOf d format offset >>= next)
      (match format with
        | .pe32 => do rest (← UInt64.ofNat <$> d.number (offset + 28) 4)
        | .pe32Plus => do rest (← d.qword (offset + 24))) := by
  cases format with
  | pe32 =>
    simp only [imageBaseOf, sum_eq h, ok_bind]
    apply ((sound_number small _ 4).map _).bind
    intro imageBase _
    exact after imageBase
  | pe32Plus =>
    simp only [imageBaseOf, sum_eq (show offset + 24 < wordBound by omega), ok_bind]
    apply (sound_qword small _).bind
    intro imageBase _
    exact after imageBase

theorem sound_ofOptional {machine : UInt16} {format : Format}
    {offset optionalSize sectionCount : Nat} (near : offset < 0x200000000)
    (room : format.directoryOffset ≤ optionalSize) (size : optionalSize < 0x10000)
    (count : sectionCount < 0x10000) :
    Sound (ofOptional d machine format offset optionalSize sectionCount)
      (Header.ofOptional d machine format offset optionalSize sectionCount) := by
  have fits {n : Nat} (low : n < 0x100000000) : offset + n < wordBound := by
    rw [wordBound]
    omega
  have front : 4 ≤ format.directoryOffset ∧ format.directoryOffset < 0x100 := by
    cases format <;> decide
  apply sound_imageBase small (fits (by omega))
  intro imageBase
  apply (sound_versionPast small (fits (by omega))).bind
  intro osVersion _
  apply (sound_versionPast small (fits (by omega))).bind
  intro subsystemVersion _
  apply (sound_dwordPast small (fits (by omega))).bind
  intro headerSize _
  apply (sound_wordPast small (fits (by omega))).bind
  intro subsystem _
  rw [sum_eq (fits (by omega)), ok_bind, difference_eq (by omega), ok_bind]
  apply (sound_dword small _).bind
  intro declared _
  rw [difference_eq room, ok_bind]
  have directories : ∀ i ∈ List.range (Header.directoryCount format declared.toNat optionalSize),
      Sound
        (do directoryAt d (← sum wordBound (offset + format.directoryOffset)
              (← product wordBound i directorySize)))
        (Header.directoryAt d (offset + format.directoryOffset + i * directorySize)) := by
    intro i listed
    have few : i < 16 := by
      have := List.mem_range.mp listed
      rw [Header.directoryCount, maxDirectories] at this
      omega
    rw [directorySize, product_eq (by rw [wordBound]; omega), ok_bind,
      sum_eq (by rw [wordBound]; omega), ok_bind]
    exact sound_directoryAt small (by rw [wordBound]; omega)
  apply (Sound.mapM directories).bind
  intro read _
  have sections : ∀ i ∈ List.range sectionCount,
      Sound
        (do sectionAt d (← sum wordBound (offset + optionalSize)
              (← product wordBound i sectionHeaderSize)) i sectionCount)
        (Header.sectionAt d (offset + optionalSize + i * sectionHeaderSize) i sectionCount) := by
    intro i listed
    have few := List.mem_range.mp listed
    rw [sectionHeaderSize, product_eq (by rw [wordBound]; omega), ok_bind,
      sum_eq (by rw [wordBound]; omega), ok_bind]
    exact sound_sectionAt small (by rw [wordBound, sectionHeaderSize]; omega)
  rw [sum_eq (fits (by omega)), ok_bind]
  apply (Sound.mapM sections).bind
  intro sections _
  exact .ok _

theorem sound_header : Sound (header d) (Header.read d) := by
  rw [header, Header.read]
  by_cases short : d.size < 64
  · simp only [short, ↓reduceIte, decide_true, Bool.true_or]
    exact .error _
  have large : 2 ≤ d.size := by omega
  simp only [short, ↓reduceIte, decide_false, Bool.false_or, slice_eq (Nat.zero_le 2) large,
    ok_bind]
  have sign : (!d.startsWith Header.dosSignature) = true ↔
      (d.extract 0 2).toList ≠ Header.dosSignature := by
    rw [Bool.not_eq_true', ← Bool.not_eq_true, startsWith_iff]
    rfl
  simp only [sign]
  apply Sound.throwing
  intro _
  apply ((sound_dword small 0x3c).map _).bind
  intro start found
  have near := lt_of_map_dword found
  rw [sound_slice small start 4]
  cases d.slice start 4 with
  | error f => exact .error _
  | ok signature =>
    simp only [Except.mapError, orFault, ok_bind]
    apply Sound.throwing
    intro _
    rw [sum_eq (by rw [wordBound]; omega), ok_bind]
    apply (sound_wordOr (sound_word small _) _).bind
    intro machine _
    apply ((sound_wordOr (sound_wordPast small (by rw [wordBound]; omega)) _).map _).bind
    intro sectionCount counted
    have few := lt_of_map_word counted
    apply ((sound_wordOr (sound_wordPast small (by rw [wordBound]; omega)) _).map _).bind
    intro optionalSize sized
    have little := lt_of_map_word sized
    rw [coffHeaderSize, sum_eq (by rw [wordBound]; omega), ok_bind]
    apply (sound_wordOr (sound_word small _) _).bind
    intro magic _
    cases Format.ofMagic? magic with
    | none => exact .error _
    | some format =>
      apply Sound.throwing
      intro room
      rw [sum_eq (by rw [wordBound]; omega), ok_bind]
      apply Sound.throwing
      intro _
      exact sound_ofOptional small (by omega) (by omega) little few

theorem sound_cliField (m : SectionMap) (address : UInt32) (offset : Nat) :
    Sound (cliField ⟨d, m⟩ address offset) (Metadata.cliField ⟨d, m⟩ address offset) := by
  rw [cliField, Metadata.cliField, fileOffset_eq, ok_bind, sound_dword small, View.dword]
  cases d.dword (m.offset (Metadata.saturatingAdvance address offset)) <;> rfl

theorem sound_metadataSlice (m : SectionMap) (address size : UInt32) :
    Sound (metadataSlice ⟨d, m⟩ address size)
      (match View.slice ⟨d, m⟩ address size.toNat with
        | .ok root => .ok root
        | .error _ => throw (.metadata .directoryOutOfBounds)) := by
  rw [metadataSlice, fileOffset_eq, ok_bind, sound_slice small, View.slice]
  cases d.slice (m.offset address) size.toNat <;> rfl

theorem sound_locate : Sound (locate d) (Metadata.locate d) := by
  rw [locate, Metadata.locate]
  by_cases bare : d.startsWith Metadata.signature = true
  · rw [if_pos bare, if_pos bare]
    exact .ok d
  rw [if_neg bare, if_neg bare, sound_header small]
  cases Header.read d with
  | error f => exact .error _
  | ok header =>
    apply Sound.throwing
    intro _
    apply (sound_cliField small header.map _ _).bind
    intro address _
    apply (sound_cliField small header.map _ _).bind
    intro size _
    exact sound_metadataSlice small header.map address size

end

end WinFloor.Guarded
