import WinFloor.Proofs.Image.Complete

/-!
What the headers of a file state. Each field stands at a place of its own, which the extent of the
headers tells; the headers of a complete file are read as what stands there (`read_of_complete`).
-/
namespace WinFloor

namespace Octets

def wordAt (d : Octets) (offset : Nat) : UInt16 := UInt16.ofNat (d.numberAt offset 2)

def dwordAt (d : Octets) (offset : Nat) : UInt32 := UInt32.ofNat (d.numberAt offset 4)

variable {d : Octets} {offset : Nat}

theorem number_of_inside {width : Nat} (inside : offset + width ≤ d.size) :
    d.number offset width = .ok (d.numberAt offset width) := by
  rw [number_eq, if_pos inside]

theorem word_of_inside (inside : offset + 2 ≤ d.size) : d.word offset = .ok (d.wordAt offset) := by
  rw [word, number_of_inside inside]
  rfl

theorem dword_of_inside (inside : offset + 4 ≤ d.size) :
    d.dword offset = .ok (d.dwordAt offset) := by
  rw [dword, number_of_inside inside]
  rfl

end Octets

theorem mapM_of_ok {read : α → Except Fault β} {give : α → β} {items : List α}
    (each : ∀ a ∈ items, read a = .ok (give a)) : items.mapM read = .ok (items.map give) := by
  induction items with
  | nil => rfl
  | cons first items ih =>
    have rest := ih fun a listed => each a (List.mem_cons_of_mem _ listed)
    rw [List.mapM_cons, each first List.mem_cons_self, rest]
    rfl

namespace Image

/-- Where the base of the image stands in the optional header, and how many octets it has. -/
def Format.baseOffset : Format → Nat
  | pe32 => 28
  | pe32Plus => 24

def Format.baseSize : Format → Nat
  | pe32 => 4
  | pe32Plus => 8

theorem Format.least_directoryOffset (format : Format) : 96 ≤ format.directoryOffset := by
  cases format <;> decide

namespace Header

variable {d : Octets} {offset : Nat}

/-! ## Parts of the headers -/

def statedVersion (d : Octets) (offset : Nat) : Version :=
  ⟨d.wordAt offset, d.wordAt (offset + 2)⟩

def statedDirectory (d : Octets) (offset : Nat) : Directory :=
  ⟨d.dwordAt offset, d.dwordAt (offset + 4)⟩

def statedSection (d : Octets) (offset : Nat) : Section where
  memorySize := d.dwordAt (offset + 8)
  address := d.dwordAt (offset + 12)
  fileSize := d.dwordAt (offset + 16)
  fileOffset := d.dwordAt (offset + 20)

theorem wordOr_of_inside {defect : ImageDefect} (inside : offset + 2 ≤ d.size) :
    wordOr d offset defect = .ok (d.wordAt offset) := by
  rw [wordOr, Octets.word_of_inside inside]

theorem versionAt_of_inside (inside : offset + 4 ≤ d.size) :
    versionAt d offset = .ok (statedVersion d offset) := by
  have major : offset + 2 ≤ d.size := by omega
  have minor : offset + 2 + 2 ≤ d.size := by omega
  rw [versionAt, Octets.word_of_inside major, Octets.word_of_inside minor]
  rfl

theorem directoryAt_of_inside (inside : offset + directorySize ≤ d.size) :
    directoryAt d offset = .ok (statedDirectory d offset) := by
  rw [directorySize] at inside
  have address : offset + 4 ≤ d.size := by omega
  have size : offset + 4 + 4 ≤ d.size := by omega
  rw [directoryAt, Octets.dword_of_inside address, Octets.dword_of_inside size]
  rfl

theorem sectionAt_of_inside {index count : Nat} (inside : offset + sectionHeaderSize ≤ d.size) :
    sectionAt d offset index count = .ok (statedSection d offset) := by
  have field {place : Nat} (h : place + 4 ≤ sectionHeaderSize) :
      d.dword (offset + place) = .ok (d.dwordAt (offset + place)) :=
    Octets.dword_of_inside (by omega)
  rw [sectionAt, if_pos inside, field (by decide), field (by decide), field (by decide),
    field (by decide)]
  rfl

/-- The directories that stand from `base` on. -/
def statedDirectories (d : Octets) (base count : Nat) : List Directory :=
  (List.range count).map fun i => statedDirectory d (base + i * directorySize)

def statedSections (d : Octets) (base count : Nat) : List Section :=
  (List.range count).map fun i => statedSection d (base + i * sectionHeaderSize)

theorem directoriesAt_of_inside {base count : Nat}
    (inside : base + count * directorySize ≤ d.size) :
    ((List.range count).mapM fun i => directoryAt d (base + i * directorySize)) =
      .ok (statedDirectories d base count) := by
  refine mapM_of_ok fun i listed => directoryAt_of_inside ?_
  have among := List.mem_range.mp listed
  simp only [directorySize] at inside ⊢
  omega

theorem sectionsAt_of_inside {base count : Nat}
    (inside : base + count * sectionHeaderSize ≤ d.size) :
    ((List.range count).mapM fun i => sectionAt d (base + i * sectionHeaderSize) i count) =
      .ok (statedSections d base count) := by
  refine mapM_of_ok fun i listed => sectionAt_of_inside ?_
  have among := List.mem_range.mp listed
  simp only [sectionHeaderSize] at inside ⊢
  omega

/-! ## The whole -/

/-- How many directories are read. -/
def directoryTotal (d : Octets) (format : Format) : Nat :=
  directoryCount format (d.dwordAt (optionalStart d + format.directoryOffset - 4)).toNat
    (optionalSize d)

/-- The headers that stand in a file whose optional header is of the given format. -/
def stated (d : Octets) (format : Format) : Header where
  machine := d.wordAt (start d + 4)
  format
  imageBase := UInt64.ofNat (d.numberAt (optionalStart d + format.baseOffset) format.baseSize)
  osVersion := statedVersion d (optionalStart d + 40)
  subsystemVersion := statedVersion d (optionalStart d + 48)
  subsystem := d.wordAt (optionalStart d + 68)
  directories :=
    statedDirectories d (optionalStart d + format.directoryOffset) (directoryTotal d format)
  map :=
    ⟨d.dwordAt (optionalStart d + 60),
      statedSections d (optionalStart d + optionalSize d) (sectionCount d)⟩

/-- No more directories are read than the optional header has room for. -/
theorem directories_inside {format : Format} (room : format.directoryOffset ≤ optionalSize d) :
    format.directoryOffset + directoryTotal d format * directorySize ≤ optionalSize d := by
  simp only [directoryTotal, directoryCount, directorySize]
  omega

theorem ofOptional_of_inside {format : Format} (room : format.directoryOffset ≤ optionalSize d)
    (inside : stop d ≤ d.size) :
    ofOptional d (d.wordAt (start d + 4)) format (optionalStart d) (optionalSize d)
      (sectionCount d) = .ok (stated d format) := by
  have least := format.least_directoryOffset
  have directories := directories_inside room
  rw [stop] at inside
  unfold ofOptional
  extract_lets directoryBase behindBase
  have rest : behindBase (stated d format).imageBase = .ok (stated d format) := by
    simp only [behindBase, directoryBase, bind, Except.bind,
      versionAt_of_inside (show optionalStart d + 40 + 4 ≤ d.size by omega),
      versionAt_of_inside (show optionalStart d + 48 + 4 ≤ d.size by omega),
      Octets.dword_of_inside (show optionalStart d + 60 + 4 ≤ d.size by omega),
      Octets.word_of_inside (show optionalStart d + 68 + 2 ≤ d.size by omega),
      Octets.dword_of_inside
        (show optionalStart d + format.directoryOffset - 4 + 4 ≤ d.size by omega)]
    rw [directoriesAt_of_inside, sectionsAt_of_inside inside]
    · rfl
    · change _ + directoryTotal d format * directorySize ≤ _
      omega
  cases format with
  | pe32 =>
    have base : optionalStart d + 28 + 4 ≤ d.size := by omega
    simp only [Octets.number_of_inside base]
    exact rest
  | pe32Plus =>
    have base : optionalStart d + 24 + 8 ≤ d.size := by omega
    simp only [Octets.qword, Octets.number_of_inside base]
    exact rest

/-- A complete file is read as it states. -/
theorem read_of_complete {format : Format} (complete : Complete d)
    (known : Format.ofMagic? (magic d) = some format) : read d = .ok (stated d format) := by
  obtain ⟨_, known', room⟩ := complete.known
  cases known.symm.trans known'
  have fixed := complete.fixed
  have large := complete.large
  have optional : optionalStart d = start d + 4 + 20 := rfl
  have unsigned : (decide (d.size < 64) || !d.startsWith dosSignature) = false := by
    simp [complete.dos, complete.large]
  have first : UInt32.toNat <$> d.dword 0x3c = .ok (start d) := by
    rw [Octets.dword_of_inside (by omega)]
    exact congrArg Except.ok (UInt32.toNat_ofNat_of_lt Octets.numberAt_lt)
  have signature : d.slice (start d) 4 = .ok (d.extract (start d) (start d + 4)) :=
    Octets.slice_eq_ok_iff.mpr ⟨by omega, rfl⟩
  have half {place : Nat} {defect : ImageDefect} (h : place + 2 ≤ d.size) :
      UInt16.toNat <$> wordOr d place defect = .ok (d.numberAt place 2) := by
    rw [wordOr_of_inside h]
    exact congrArg Except.ok (UInt16.toNat_ofNat_of_lt Octets.numberAt_lt)
  have found : wordOr d (start d + 4 + coffHeaderSize) .optionalHeaderTruncated = .ok (magic d) :=
    wordOr_of_inside (show optionalStart d + 2 ≤ d.size by omega)
  have whole := complete.inside
  rw [stop] at whole
  have outside : ¬d.size < optionalStart d + optionalSize d := by omega
  have narrow : ¬optionalSize d < format.directoryOffset := by omega
  simp only [read, unsigned, Bool.false_eq_true, ↓reduceIte, first, signature, complete.signed,
    ne_eq, not_true_eq_false, bind, Except.bind]
  simp only [half (show start d + 4 + 2 + 2 ≤ d.size by omega),
    half (show start d + 4 + 16 + 2 ≤ d.size by omega),
    wordOr_of_inside (show start d + 4 + 2 ≤ d.size by omega), found, known]
  exact (if_neg narrow).trans ((if_neg outside).trans (ofOptional_of_inside room complete.inside))

end Header

end Image

end WinFloor
