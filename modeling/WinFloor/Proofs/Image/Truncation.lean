import WinFloor.Proofs.Image.Stated

/-!
Headers of a file that was cut off or that goes on. The front of a file has complete headers if the
file has and the front reaches the end of the section table (`complete_take_iff`); it then states
what the file states (`stated_take`). So the headers of a file depend on the octets up to that end,
all of them, and on no other (`read_frontier`).
-/
namespace WinFloor

namespace Octets

variable {d : Octets} {k offset : Nat}

theorem numberAt_take {width : Nat} (within : offset + width ≤ k) :
    numberAt (d.take k) offset width = d.numberAt offset width := by
  unfold numberAt
  rw [extract_take within]

theorem wordAt_take (within : offset + 2 ≤ k) : wordAt (d.take k) offset = d.wordAt offset :=
  congrArg UInt16.ofNat (numberAt_take within)

theorem dwordAt_take (within : offset + 4 ≤ k) : dwordAt (d.take k) offset = d.dwordAt offset :=
  congrArg UInt32.ofNat (numberAt_take within)

end Octets

namespace Image.Header

open Octets

variable {d : Octets} {k : Nat}

/-! ## What the front states -/

theorem start_take (large : 64 ≤ k) : start (d.take k) = start d :=
  numberAt_take large

theorem optionalStart_take (large : 64 ≤ k) : optionalStart (d.take k) = optionalStart d :=
  congrArg (· + 4 + coffHeaderSize) (start_take large)

/-- The extent of the headers is told in front of the format of the optional header. -/
theorem extent_take (large : 64 ≤ k) (fixed : optionalStart d + 2 ≤ k) :
    sectionCount (d.take k) = sectionCount d ∧ optionalSize (d.take k) = optionalSize d ∧
      magic (d.take k) = magic d ∧ stop (d.take k) = stop d := by
  have optional : optionalStart d = start d + 4 + 20 := rfl
  have count : sectionCount (d.take k) = sectionCount d := by
    rw [sectionCount, start_take large]
    exact numberAt_take (by omega)
  have size : optionalSize (d.take k) = optionalSize d := by
    rw [optionalSize, start_take large]
    exact numberAt_take (by omega)
  have format : magic (d.take k) = magic d := by
    rw [magic, optionalStart_take large]
    exact wordAt_take fixed
  exact ⟨count, size, format, by rw [stop, stop, optionalStart_take large, size, count]⟩

/-- The place that tells the format, and the header of the DOS program, stand in front of the end. -/
theorem fixed_le_stop {format : Format} (room : format.directoryOffset ≤ optionalSize d) :
    64 ≤ stop d ∧ optionalStart d + 2 ≤ stop d := by
  have least := format.least_directoryOffset
  have whole : optionalStart d + optionalSize d ≤ stop d := Nat.le_add_right ..
  omega

theorem statedVersion_take {offset : Nat} (within : offset + 4 ≤ k) :
    statedVersion (d.take k) offset = statedVersion d offset := by
  simp only [statedVersion, wordAt_take (show offset + 2 ≤ k by omega),
    wordAt_take (show offset + 2 + 2 ≤ k by omega)]

theorem statedDirectories_take {base count : Nat} (within : base + count * directorySize ≤ k) :
    statedDirectories (d.take k) base count = statedDirectories d base count := by
  refine List.map_congr_left fun i listed => ?_
  have among := List.mem_range.mp listed
  simp only [directorySize] at within ⊢
  simp only [statedDirectory, dwordAt_take (show base + i * 8 + 4 ≤ k by omega),
    dwordAt_take (show base + i * 8 + 4 + 4 ≤ k by omega)]

theorem statedSections_take {base count : Nat} (within : base + count * sectionHeaderSize ≤ k) :
    statedSections (d.take k) base count = statedSections d base count := by
  refine List.map_congr_left fun i listed => ?_
  have among := List.mem_range.mp listed
  have field {place : Nat} (h : place + 4 ≤ sectionHeaderSize) :
      dwordAt (d.take k) (base + i * sectionHeaderSize + place) =
        d.dwordAt (base + i * sectionHeaderSize + place) := by
    refine dwordAt_take ?_
    simp only [sectionHeaderSize] at within h ⊢
    omega
  simp only [statedSection, field (show 8 + 4 ≤ sectionHeaderSize by decide),
    field (show 12 + 4 ≤ sectionHeaderSize by decide),
    field (show 16 + 4 ≤ sectionHeaderSize by decide),
    field (show 20 + 4 ≤ sectionHeaderSize by decide)]

theorem stated_take {format : Format} (room : format.directoryOffset ≤ optionalSize d)
    (reaches : stop d ≤ k) : stated (d.take k) format = stated d format := by
  have least := format.least_directoryOffset
  have fields : format.baseOffset + format.baseSize ≤ format.directoryOffset := by
    cases format <;> decide
  have optional : optionalStart d = start d + 4 + 20 := rfl
  have within : optionalStart d + optionalSize d + sectionCount d * sectionHeaderSize ≤ k := reaches
  obtain ⟨large, fixed⟩ := fixed_le_stop room
  have large : 64 ≤ k := Nat.le_trans large reaches
  obtain ⟨count, size, -, -⟩ := extent_take large (Nat.le_trans fixed reaches)
  have total : directoryTotal (d.take k) format = directoryTotal d format := by
    simp only [directoryTotal, size, optionalStart_take large,
      dwordAt_take (show optionalStart d + format.directoryOffset - 4 + 4 ≤ k by omega)]
  have directories := directories_inside room
  simp only [stated, start_take large, optionalStart_take large, count, size, total,
    wordAt_take (show start d + 4 + 2 ≤ k by omega),
    wordAt_take (show optionalStart d + 68 + 2 ≤ k by omega),
    dwordAt_take (show optionalStart d + 60 + 4 ≤ k by omega),
    numberAt_take (show optionalStart d + format.baseOffset + format.baseSize ≤ k by omega),
    statedVersion_take (show optionalStart d + 40 + 4 ≤ k by omega),
    statedVersion_take (show optionalStart d + 48 + 4 ≤ k by omega),
    statedDirectories_take (show optionalStart d + format.directoryOffset +
      directoryTotal d format * directorySize ≤ k by omega),
    statedSections_take within]

/-! ## Which fronts are complete -/

theorem startsWith_take {signature : List UInt8} (within : signature.length ≤ k) :
    startsWith (d.take k) signature = d.startsWith signature := by
  unfold startsWith
  rw [extract_take within]

theorem complete_iff (d : Octets) : Complete d ↔
    64 ≤ d.size ∧ d.startsWith dosSignature = true ∧
      (d.extract (start d) (start d + 4)).toList = imageSignature ∧
      (∃ format, Format.ofMagic? (magic d) = some format ∧
        format.directoryOffset ≤ optionalSize d) ∧ stop d ≤ d.size :=
  ⟨fun h => ⟨h.large, h.dos, h.signed, h.known, h.inside⟩,
    fun ⟨large, dos, signed, known, inside⟩ => ⟨large, dos, signed, known, inside⟩⟩

/-- Where the front has the place that tells the format, its extent is that of the file. -/
theorem complete_take_of_fixed (large : 64 ≤ k) (fixed : optionalStart d + 2 ≤ k) :
    Complete (d.take k) ↔ Complete d ∧ stop d ≤ k := by
  have optional : optionalStart d = start d + 4 + 20 := rfl
  obtain ⟨-, optionalSize, magic, stop⟩ := extent_take (d := d) large fixed
  have dos : startsWith (d.take k) dosSignature = d.startsWith dosSignature :=
    startsWith_take (show 2 ≤ k by omega)
  have signature : (d.take k).extract (start d) (start d + 4) =
      d.extract (start d) (start d + 4) := extract_take (by omega)
  have size : (d.take k).size = min k d.size := by simp
  rw [complete_iff, complete_iff, dos, start_take large, signature, magic, optionalSize, stop, size,
    Nat.le_min, Nat.le_min]
  constructor
  · rintro ⟨⟨-, large⟩, dos, signed, known, reaches, inside⟩
    exact ⟨⟨large, dos, signed, known, inside⟩, reaches⟩
  · rintro ⟨⟨large', dos, signed, known, inside⟩, reaches⟩
    exact ⟨⟨large, large'⟩, dos, signed, known, reaches, inside⟩

theorem complete_take_iff (d : Octets) (k : Nat) :
    Complete (d.take k) ↔ Complete d ∧ stop d ≤ k := by
  constructor
  · intro complete
    have size : (d.take k).size = min k d.size := by simp
    have large := complete.large
    have fixed := complete.fixed
    rw [optionalStart_take (by omega)] at fixed
    exact (complete_take_of_fixed (by omega) (by omega)).mp complete
  · rintro ⟨complete, reaches⟩
    obtain ⟨format, -, room⟩ := complete.known
    obtain ⟨large, fixed⟩ := fixed_le_stop room
    exact (complete_take_of_fixed (Nat.le_trans large reaches) (Nat.le_trans fixed reaches)).mpr
      ⟨complete, reaches⟩

theorem read_take_of_complete (complete : Complete d) (reaches : stop d ≤ k) :
    Header.read (d.take k) = Header.read d := by
  obtain ⟨format, known, room⟩ := complete.known
  obtain ⟨large, fixed⟩ := fixed_le_stop room
  have front : Complete (d.take k) := (complete_take_iff d k).mpr ⟨complete, reaches⟩
  have known' : Format.ofMagic? (magic (d.take k)) = some format := by
    rw [(extent_take (Nat.le_trans large reaches) (Nat.le_trans fixed reaches)).2.2.1, known]
  rw [read_of_complete front known', read_of_complete complete known, stated_take room reaches]

/-- The headers of an image are read from every front of the file that reaches the end of its
section table, and from whatever goes on behind it. A shorter front is refused as no well-formed
image. -/
theorem read_frontier {d : Octets} {header : Header} (read : Header.read d = .ok header) :
    stop d ≤ d.size ∧ (∀ k, stop d ≤ k → Header.read (d.take k) = .ok header) ∧
      (∀ k, k < stop d → ∃ f, Header.read (d.take k) = .error f ∧ f.isImageFault = true) ∧
      ∀ suffix : Octets, Header.read (d ++ suffix) = .ok header := by
  have complete := complete_of_read read
  refine ⟨complete.inside, fun k reaches => ?_, fun k short => ?_, fun suffix => ?_⟩
  · exact (read_take_of_complete complete reaches).trans read
  · rcases settles_read (d.take k) with ⟨front, -⟩ | ⟨-, f, failed, malformed⟩
    · have reaches := ((complete_take_iff d k).mp front).2
      omega
    · exact ⟨f, failed, malformed⟩
  · -- The file is a front of what goes on behind it.
    have same : (d ++ suffix).take d.size = d := by simp
    have front : Complete ((d ++ suffix).take d.size) := same.symm ▸ complete
    obtain ⟨longer, reaches⟩ := (complete_take_iff (d ++ suffix) d.size).mp front
    have read' := read_take_of_complete longer reaches
    exact read'.symm.trans (same.symm ▸ read)

/-- Headers that start inside the header of the DOS program, with one section and an octet behind
them. -/
def overlapping : Octets :=
  ⟨[0x4d, 0x5a, 0, 0, 0x50, 0x45, 0, 0, 0x4c, 1, 1, 0] ++ List.replicate 12 0 ++
    [96, 0, 0, 0, 0x0b, 1] ++ List.replicate 30 0 ++ [4, 0, 0, 0] ++ List.replicate 100 0 ++
      [0xff]⟩

theorem read_frontier_overlapping :
    Header.read overlapping = .ok (stated overlapping .pe32) ∧ overlapping.size = 165 ∧
      stop overlapping = 164 ∧ Header.read (overlapping.take 164) = .ok (stated overlapping .pe32) ∧
        ∃ f, Header.read (overlapping.take 163) = .error f ∧ f.isImageFault = true := by
  have reaches : stop overlapping = 164 := by decide +kernel
  have known : Format.ofMagic? (magic overlapping) = some .pe32 := by decide +kernel
  have complete : Complete overlapping :=
    ⟨by decide +kernel, by decide +kernel, by decide +kernel, ⟨_, known, by decide +kernel⟩,
      by decide +kernel⟩
  have read := read_of_complete complete known
  obtain ⟨-, longer, shorter, -⟩ := read_frontier read
  exact ⟨read, by decide +kernel, reaches, longer 164 (by omega), shorter 163 (by omega)⟩

end Image.Header

end WinFloor
