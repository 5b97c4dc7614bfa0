import Mathlib.Data.List.Forall2
import WinFloor.Metadata.Root
import WinFloor.Proofs.Metadata.Heaps

/-!
The root of metadata, written with its stream headers, and what is read from it. The headers decide
(`read_blocks`): the streams are those they name, wherever their octets stand (`read_root`).
-/
namespace WinFloor.Metadata

/-- Octets that stand in front of the version and say nothing of use here. -/
structure RootFiller where
  majorVersion : UInt16
  minorVersion : UInt16
  reserved : UInt32
  flags : UInt16

/-- A header, its name ended by a zero and filled up with zeros to a multiple of four octets. -/
def StreamHeader.octets (h : StreamHeader) : List UInt8 :=
  toLittleEndian 4 h.span.offset ++ toLittleEndian 4 h.span.size ++
    (zeroEnded h.name).rightpad (4 * (((zeroEnded h.name).length + 3) / 4)) 0

/-- The fields of a header have room for what it says. -/
structure StreamHeader.Fits (h : StreamHeader) : Prop where
  offset : h.span.offset < 0x100000000
  size : h.span.size < 0x100000000
  name : Char.ofNat 0 ∉ h.name.toList

instance (h : StreamHeader) : Decidable h.Fits :=
  decidable_of_iff (h.span.offset < 0x100000000 ∧ h.span.size < 0x100000000 ∧
    Char.ofNat 0 ∉ h.name.toList)
    ⟨fun ⟨offset, size, name⟩ => ⟨offset, size, name⟩, fun h => ⟨h.offset, h.size, h.name⟩⟩

/-- What stands in front of the version. -/
def RootFiller.preamble (f : RootFiller) : List UInt8 :=
  [0x42, 0x53, 0x4a, 0x42] ++ (toLittleEndian 2 f.majorVersion.toNat ++
    toLittleEndian 2 f.minorVersion.toNat ++ toLittleEndian 4 f.reserved.toNat)

/-- A root: the version behind its length, and the headers of the streams behind their number. -/
def rootOctets (f : RootFiller) (version : List UInt8) (headers : List StreamHeader) :
    List UInt8 :=
  f.preamble ++ ((toLittleEndian 4 version.length ++ version) ++ (toLittleEndian 2 f.flags.toNat ++
    (toLittleEndian 2 headers.length ++ headers.flatMap StreamHeader.octets)))

theorem Reads.untilZero {bs : List UInt8} (nonzero : 0 ∉ bs) :
    Reads Reader.untilZero (bs ++ [0]) bs.toArray := by
  apply Reads.get_bind
  intro c behind sees
  rw [List.append_assoc] at sees
  simp only [zeroFrom?_eq sees.ahead nonzero, Nat.add_sub_cancel_left]
  have rest : Reads (do Reader.skip 1; return bs.toArray) [0] bs.toArray :=
    (Reads.skip (by rfl)).bind_pure fun _ => bs.toArray
  rw [EStateM.run_bind, Reads.take bs c _ sees]
  simp only
  rw [rest _ behind sees.moved, Cursor.moved_moved, List.length_append]

/-- The next multiple of four is the only one within three octets. -/
theorem eq_namePadding {length padding : Nat} (short : padding < 4)
    (filled : 4 ∣ length + padding) : padding = namePadding length := by
  rw [namePadding]
  omega

/-- What fills a header up says nothing. -/
theorem reads_padded {h : StreamHeader} (fits : h.Fits) {padding : List UInt8}
    (short : padding.length < 4) (filled : 4 ∣ (zeroEnded h.name).length + padding.length) :
    Reads StreamHeader.read
      (toLittleEndian 4 h.span.offset ++ toLittleEndian 4 h.span.size ++ zeroEnded h.name ++
        padding) h := by
  have length : (Text.Utf8.encode h.name).toArray.size + 1 = (zeroEnded h.name).length := by
    simp [zeroEnded]
  have named : Reads Reader.untilZero (zeroEnded h.name) (Text.Utf8.encode h.name).toArray :=
    Reads.untilZero (Text.Utf8.zero_not_mem_encode fits.name)
  rw [StreamHeader.read, List.append_assoc, List.append_assoc]
  apply (Reads.dword fits.offset).bind
  apply (Reads.dword fits.size).bind
  apply named.bind
  rw [length]
  simpa using (Reads.skip (eq_namePadding short filled)).bind_pure fun _ => h

theorem reads_header {h : StreamHeader} (fits : h.Fits) :
    Reads StreamHeader.read h.octets h := by
  rw [StreamHeader.octets, List.rightpad, ← List.append_assoc]
  apply reads_padded fits
  · rw [List.length_replicate]
    omega
  · rw [List.length_replicate]
    omega

/-! ## Headers one after the other -/

section
variable {blocks : List (List UInt8)} {headers : List StreamHeader} {c : Cursor}
  {behind : List UInt8}

/-- The headers are read one after the other; each has to name a part of the data. -/
theorem run_streams (listed : List.Forall₂ (Reads StreamHeader.read) blocks headers)
    (found : Streams) (within : ∀ h ∈ headers, h.span.isWithin c.data = true)
    (sees : c.Sees (blocks.flatten ++ behind)) :
    (Streams.read blocks.length found).run c =
      .ok (headers.foldl Streams.record found) (c.moved blocks.flatten.length) := by
  induction listed generalizing c found with
  | nil => rfl
  | @cons block h blocks headers reads _ ih =>
    rw [List.flatten_cons, List.append_assoc] at sees
    have rest := ih (c := c.moved block.length) (found.record h)
      (fun h m => within h (List.mem_cons_of_mem _ m)) sees.moved
    rw [List.length_cons, Streams.read, EStateM.run_bind, reads c _ sees]
    simp only [EStateM.run_bind, EStateM.run_get, Cursor.data_moved,
      within h List.mem_cons_self, ↓reduceIte, rest, Cursor.moved_moved, List.flatten_cons,
      List.length_append, List.foldl_cons]

/-- The first header that names no part of the data ends the reading. -/
theorem run_streams_outside (listed : List.Forall₂ (Reads StreamHeader.read) blocks headers)
    (found : Streams) {outside : StreamHeader}
    (first : headers.find? (fun h => !h.span.isWithin c.data) = some outside)
    (sees : c.Sees (blocks.flatten ++ behind)) :
    ∃ moved, (Streams.read blocks.length found).run c =
      .error (.metadata (.streamOutOfBounds outside.name)) moved := by
  induction listed generalizing c found with
  | nil => cases first
  | @cons block h blocks headers reads _ ih =>
    rw [List.flatten_cons, List.append_assoc] at sees
    rw [List.length_cons, Streams.read, EStateM.run_bind, reads c _ sees]
    rw [List.find?_cons] at first
    cases inside : h.span.isWithin c.data with
    | true =>
      simp only [EStateM.run_bind, EStateM.run_get, Cursor.data_moved, inside, ↓reduceIte]
      simp only [inside, Bool.not_true] at first
      exact ih (c := c.moved block.length) (found.record h) first sees.moved
    | false =>
      simp only [inside, Bool.not_false, Option.some.injEq] at first
      cases first
      simp only [EStateM.run_bind, EStateM.run_get, Cursor.data_moved, inside, Bool.false_eq_true,
        ↓reduceIte]
      exact ⟨_, rfl⟩

end

theorem reads_version {version : List UInt8} (short : version.length < 0x100000000) :
    Reads Root.readVersion (toLittleEndian 4 version.length ++ version)
      (textBeforeZero version.toArray) := by
  apply (Reads.dword short).bind
  apply Reads.get_bind
  intro c behind sees
  rw [Reads.take version c behind sees]
  rfl

/-- The root as it is read, given the streams that its headers leave. -/
def rootOf (d : Octets) (version : List UInt8) (streams : Streams) (tables : Span) : Root where
  version := textBeforeZero version.toArray
  tables := tables.octets d
  strings := streams.strings.octets d
  blobs := streams.blobs.octets d

theorem startsWith_of_toList {d : Octets} {bs behind : List UInt8}
    (h : d.toList = bs ++ behind) : d.startsWith bs = true := by
  have first := toList_extract_window d 0 bs.length
  rw [Nat.zero_add, List.drop_zero, h, List.take_left] at first
  rw [Octets.startsWith, first, beq_self_eq_true]

/-- A root whose headers are given by their octets. -/
def rootBlocks (f : RootFiller) (version : List UInt8) (blocks : List (List UInt8)) : List UInt8 :=
  f.preamble ++ ((toLittleEndian 4 version.length ++ version) ++ (toLittleEndian 2 f.flags.toNat ++
    (toLittleEndian 2 blocks.length ++ blocks.flatten)))

theorem rootOctets_eq (f : RootFiller) (version : List UInt8) (headers : List StreamHeader) :
    rootOctets f version headers = rootBlocks f version (headers.map StreamHeader.octets) := by
  rw [rootOctets, rootBlocks, List.length_map, List.flatMap_def]

theorem length_preamble (f : RootFiller) : f.preamble.length = Root.preambleSize := by
  simp [RootFiller.preamble, Root.preambleSize]

/-- The reading of the headers decides. -/
theorem read_blocks (f : RootFiller) {version : List UInt8} {blocks : List (List UInt8)}
    (behind : List UInt8) (short : version.length < 0x100000000) (few : blocks.length < 0x10000) :
    ∃ c : Cursor, c.data = (rootBlocks f version blocks ++ behind).toArray ∧
      c.Sees (blocks.flatten ++ behind) ∧
      Root.read (rootBlocks f version blocks ++ behind).toArray =
        match (Streams.read blocks.length .none).run c with
        | .error fault _ => .error fault
        | .ok streams _ =>
          match streams.tables with
          | none => .error (.metadata .noTableStream)
          | some tables => .ok (rootOf c.data version streams tables) := by
  have sees := Cursor.sees_start (rootBlocks f version blocks ++ behind)
  have parts : rootBlocks f version blocks ++ behind =
      f.preamble ++ ((toLittleEndian 4 version.length ++ version) ++
        (toLittleEndian 2 f.flags.toNat ++ (toLittleEndian 2 blocks.length ++
          (blocks.flatten ++ behind)))) := by
    simp only [rootBlocks, List.append_assoc]
  generalize rootBlocks f version blocks ++ behind = bs at *
  have signed : Octets.startsWith bs.toArray signature = true := by
    rw [RootFiller.preamble, List.append_assoc] at parts
    exact startsWith_of_toList parts
  have large : ¬ bs.toArray.size < 16 := by
    have room := congrArg List.length parts
    simp only [List.length_append, length_preamble, Root.preambleSize,
      length_toLittleEndian] at room
    rw [List.size_toArray]
    omega
  generalize (bs.toArray : Octets) = d at *
  rw [parts] at sees
  have skipped := Reads.skip (length_preamble f) _ _ sees
  have versionRead := reads_version short _ _ sees.moved
  have flags := Reads.word f.flags.toNat_lt _ _ sees.moved.moved
  have count := Reads.word few _ _ sees.moved.moved.moved
  have start : (decide (d.size < 16) || !Octets.startsWith d signature) = false := by
    rw [signed, decide_eq_false large]
    rfl
  have here : (Cursor.start d).data = d := rfl
  refine ⟨_, rfl, sees.moved.moved.moved.moved, ?_⟩
  rw [Root.read, Reader.value, Root.reader]
  simp only [EStateM.run_bind, EStateM.run_get]
  simp only [here, start, Bool.false_eq_true, ↓reduceIte, EStateM.run_bind, skipped, versionRead,
    flags, count]
  cases (Streams.read blocks.length .none).run _ with
  | error fault moved => rfl
  | ok streams moved =>
    simp only
    cases streams.tables with
    | none => rfl
    | some tables => rfl

theorem read_root {f : RootFiller} {version : List UInt8} {headers : List StreamHeader}
    {behind : List UInt8} {tables : Span} (short : version.length < 0x100000000)
    (few : headers.length < 0x10000) (fits : ∀ h ∈ headers, h.Fits)
    (within : ∀ h ∈ headers,
      h.span.isWithin (rootOctets f version headers ++ behind).toArray = true)
    (listed : (headers.foldl Streams.record .none).tables = some tables) :
    Root.read (rootOctets f version headers ++ behind).toArray =
      .ok (rootOf (rootOctets f version headers ++ behind).toArray version
        (headers.foldl Streams.record .none) tables) := by
  have reads : List.Forall₂ (Reads StreamHeader.read) (headers.map StreamHeader.octets) headers :=
    List.forall₂_map_left_iff.mpr
      (List.forall₂_same.mpr fun h member => reads_header (fits h member))
  rw [← List.length_map StreamHeader.octets] at few
  rw [rootOctets_eq] at within ⊢
  obtain ⟨c, same, sees, read⟩ := read_blocks f behind short few
  rw [read, run_streams reads .none (same ▸ within) sees]
  simp only [listed, same]

/-! ## Streams one after the other -/

/-- The headers of streams that follow each other from `start` on, each with its name. -/
def headersFrom : (start : Nat) → List (String × List UInt8) → List StreamHeader
  | _, [] => []
  | start, (name, bs) :: streams =>
    ⟨name, ⟨start, bs.length⟩⟩ :: headersFrom (start + bs.length) streams

/-- Where the streams start: behind the root, whose length does not depend on where that is. -/
def streamStart (f : RootFiller) (version : List UInt8) (streams : List (String × List UInt8)) :
    Nat :=
  (rootOctets f version (headersFrom 0 streams)).length

/-- A root that lists streams, and these behind it. -/
def streamOctets (f : RootFiller) (version : List UInt8) (streams : List (String × List UInt8)) :
    List UInt8 :=
  rootOctets f version (headersFrom (streamStart f version streams) streams) ++
    streams.flatMap Prod.snd

theorem length_headersFrom (start : Nat) (streams : List (String × List UInt8)) :
    (headersFrom start streams).length = streams.length := by
  induction streams generalizing start with
  | nil => rfl
  | cons p streams ih => rw [headersFrom, List.length_cons, ih, List.length_cons]

theorem length_flatMap_headersFrom (start other : Nat) (streams : List (String × List UInt8)) :
    ((headersFrom start streams).flatMap StreamHeader.octets).length =
      ((headersFrom other streams).flatMap StreamHeader.octets).length := by
  induction streams generalizing start other with
  | nil => rfl
  | cons p streams ih =>
    have rest := ih (start + p.2.length) (other + p.2.length)
    simp only [headersFrom, List.flatMap_cons, List.length_append, rest, StreamHeader.octets,
      length_toLittleEndian]

theorem length_rootOctets (f : RootFiller) (version : List UInt8) (start : Nat)
    (streams : List (String × List UInt8)) :
    (rootOctets f version (headersFrom start streams)).length = streamStart f version streams := by
  have same := length_flatMap_headersFrom start 0 streams
  simp only [streamStart, rootOctets, List.length_append, length_toLittleEndian, same]

/-- Each header names its stream, which lies in the data. -/
theorem mem_headersFrom {d : Octets} {front behind : List UInt8}
    {streams : List (String × List UInt8)}
    (there : d.toList = front ++ (streams.flatMap Prod.snd ++ behind)) :
    ∀ h ∈ headersFrom front.length streams, ∃ bs, (h.name, bs) ∈ streams ∧
      h.span.octets d = bs.toArray ∧ h.span.isWithin d = true := by
  induction streams generalizing front with
  | nil => simp [headersFrom]
  | cons p streams ih =>
    obtain ⟨name, bs⟩ := p
    rw [List.flatMap_cons, List.append_assoc] at there
    intro h listed
    rcases List.mem_cons.mp listed with rfl | later
    · refine ⟨bs, List.mem_cons_self, ?_, ?_⟩
      · apply Array.toList_inj.mp
        rw [Span.octets, toList_extract_window, there, List.drop_left, List.take_left]
      · have room := congrArg List.length there
        simp only [Array.length_toList, List.length_append] at room
        simp only [Span.isWithin, decide_eq_true_eq]
        omega
    · rw [← List.append_assoc] at there
      rw [← List.length_append] at later
      obtain ⟨rest, member, stands⟩ := ih there h later
      exact ⟨rest, List.mem_cons_of_mem _ member, stands⟩

theorem exists_headersFrom {streams : List (String × List UInt8)} {p : String × List UInt8}
    (h : p ∈ streams) (start : Nat) : ∃ header ∈ headersFrom start streams, header.name = p.1 := by
  induction streams generalizing start with
  | nil => cases h
  | cons q streams ih =>
    rcases List.mem_cons.mp h with rfl | later
    · exact ⟨_, List.mem_cons_self, rfl⟩
    · obtain ⟨header, listed, name⟩ := ih later (start + q.2.length)
      exact ⟨header, List.mem_cons_of_mem _ listed, name⟩

def isTableStream (name : String) : Prop := name = "#~" ∨ name = "#-"

instance : DecidablePred isTableStream := fun name =>
  inferInstanceAs (Decidable (name = "#~" ∨ name = "#-"))

/-- A part of what is found so far is what the last header of some names says. -/
def Streams.Records (field : Streams → Option Span) (named : String → Prop)
    [DecidablePred named] : Prop :=
  ∀ s h, field (Streams.record s h) = if named h.name then some h.span else field s

namespace Streams

theorem records_tables : Records Streams.tables isTableStream := by
  intro s h
  by_cases tables : h.name = "#~" ∨ h.name = "#-"
  · simp [record, isTableStream, tables]
  · simp only [record, isTableStream, tables, ↓reduceIte]
    repeat' split
    all_goals rfl

theorem records_strings : Records (fun s => some s.strings) (· = "#Strings") := by
  intro s h
  by_cases strings : h.name = "#Strings"
  · simp [record, strings]
  · simp only [record, strings, ↓reduceIte]
    repeat' split
    all_goals rfl

theorem records_blobs : Records (fun s => some s.blobs) (· = "#Blob") := by
  intro s h
  by_cases blobs : h.name = "#Blob"
  · simp [record, blobs]
  · simp only [record, blobs, ↓reduceIte]
    repeat' split
    all_goals rfl

/-- What headers leave as such a part: what one of those that have a name of it says. -/
theorem Records.foldl {field : Streams → Option Span} {named : String → Prop}
    [DecidablePred named] (law : Records field named) {headers : List StreamHeader}
    {P : Span → Prop} (each : ∀ h ∈ headers, named h.name → P h.span) {found : Streams}
    (there : (∃ h ∈ headers, named h.name) ∨ ∃ span, field found = some span ∧ P span) :
    ∃ span, field (headers.foldl record found) = some span ∧ P span := by
  induction headers generalizing found with
  | nil =>
    rcases there with ⟨h, listed, -⟩ | known
    · cases listed
    · exact known
  | cons h headers ih =>
    apply ih fun g listed => each g (List.mem_cons_of_mem _ listed)
    rw [law]
    by_cases here : named h.name
    · right
      exact ⟨h.span, if_pos here, each h List.mem_cons_self here⟩
    · rw [if_neg here]
      rcases there with ⟨g, listed, name⟩ | known
      · rcases List.mem_cons.mp listed with rfl | later
        · exact absurd name here
        · exact .inl ⟨g, later, name⟩
      · exact .inr known

end Streams

/-- There are streams of some names, and all of these have the octets `bs`. -/
structure Carries (streams : List (String × List UInt8)) (named : String → Prop)
    (bs : List UInt8) : Prop where
  one : ∃ p ∈ streams, named p.1
  all : ∀ p ∈ streams, named p.1 → p.2 = bs

theorem Carries.found {field : Streams → Option Span} {named : String → Prop}
    [DecidablePred named] {streams : List (String × List UInt8)} {bs : List UInt8}
    (h : Carries streams named bs) (law : Streams.Records field named) {d : Octets}
    {front behind : List UInt8}
    (there : d.toList = front ++ (streams.flatMap Prod.snd ++ behind)) :
    ∃ span, field ((headersFrom front.length streams).foldl Streams.record .none) = some span ∧
      span.octets d = bs.toArray := by
  apply law.foldl
  · intro header listed name
    obtain ⟨said, member, octets, -⟩ := mem_headersFrom there header listed
    have same : said = bs := h.all _ member name
    rw [octets, same]
  · obtain ⟨p, listed, name⟩ := h.one
    obtain ⟨header, member, same⟩ := exists_headersFrom listed front.length
    exact .inl ⟨header, member, same ▸ name⟩

/-- The root gives back the streams, whatever order they have and whatever others there are. -/
theorem read_streams {f : RootFiller} {version : List UInt8}
    {streams : List (String × List UInt8)} {tables strings blobs : List UInt8}
    (tableStream : Carries streams isTableStream tables)
    (stringStream : Carries streams (· = "#Strings") strings)
    (blobStream : Carries streams (· = "#Blob") blobs)
    (short : version.length < 0x100000000) (few : streams.length < 0x10000)
    (fits : ∀ h ∈ headersFrom (streamStart f version streams) streams, h.Fits) :
    Root.read (streamOctets f version streams).toArray =
      .ok ⟨textBeforeZero version.toArray, tables.toArray, strings.toArray, blobs.toArray⟩ := by
  have start := length_rootOctets f version (streamStart f version streams) streams
  have there : (streamOctets f version streams).toArray.toList =
      rootOctets f version (headersFrom (streamStart f version streams) streams) ++
        (streams.flatMap Prod.snd ++ []) := by
    rw [streamOctets, List.append_nil]
  rw [← length_headersFrom (streamStart f version streams)] at few
  obtain ⟨tableSpan, listed, tableOctets⟩ := tableStream.found Streams.records_tables there
  obtain ⟨stringSpan, strung, stringOctets⟩ := stringStream.found Streams.records_strings there
  obtain ⟨blobSpan, blobbed, blobOctets⟩ := blobStream.found Streams.records_blobs there
  have within := mem_headersFrom there
  rw [start] at listed strung blobbed within
  have read := read_root short few fits
    (fun h member => by
      obtain ⟨bs, -, -, inside⟩ := within h member
      exact inside) listed
  rw [streamOctets, read, rootOf]
  rw [streamOctets] at tableOctets stringOctets blobOctets
  rw [tableOctets, Option.some.inj strung, stringOctets, Option.some.inj blobbed, blobOctets]

end WinFloor.Metadata
