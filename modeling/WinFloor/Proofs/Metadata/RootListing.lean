import Mathlib.Data.List.TakeWhile
import WinFloor.Proofs.Metadata.RootStreams

/-!
Roots that list any streams, in any order: parts of the metadata that overlap, a part that is
listed twice, several streams of one name. Of each name the last counts
(`Streams.Records.foldl_eq`), and the root that is read has the octets of these (`read_listed`). A
root that lists no tables, or a part that the metadata does not have, is refused.
-/
namespace WinFloor.Metadata

/-- A header as it is written, with as many octets as it takes to fill its name and the zero behind
that up to a multiple of four. -/
structure PaddedHeader where
  header : StreamHeader
  padding : List UInt8
  fits : header.Fits
  short : padding.length < 4
  filled : 4 ∣ (zeroEnded header.name).length + padding.length

def PaddedHeader.octets (p : PaddedHeader) : List UInt8 :=
  toLittleEndian 4 p.header.span.offset ++ toLittleEndian 4 p.header.span.size ++
    zeroEnded p.header.name ++ p.padding

/-- What a root is written from. The version is of any length and need not be text. -/
structure RootListing where
  filler : RootFiller
  version : List UInt8
  padded : List PaddedHeader
  short : version.length < 0x100000000
  few : padded.length < 0x10000

namespace RootListing

variable (l : RootListing)

def headers : List StreamHeader := l.padded.map PaddedHeader.header

def blocks : List (List UInt8) := l.padded.map PaddedHeader.octets

/-- The metadata: the root, and any octets behind it. -/
def data (behind : List UInt8) : Octets :=
  (rootBlocks l.filler l.version l.blocks ++ behind).toArray

/-- The text in front of the first zero; empty where it is not UTF-8. -/
def versionText : String := (Text.Utf8.strict? (l.version.takeWhile (· ≠ 0))).getD ""

end RootListing

/-- What the last header of such a name says. -/
def lastNamed (named : String → Prop) [DecidablePred named] (headers : List StreamHeader) :
    Option Span :=
  (headers.filter fun h => named h.name).getLast?.map StreamHeader.span

/-! ## The version -/

theorem zero_mem_of_zeroFrom? {d : Octets} {offset stop : Nat}
    (found : d.zeroFrom? offset = some stop) : 0 ∈ d := by
  fun_induction Octets.zeroFrom? d offset with
  | case1 offset inside zero => exact zero ▸ Array.getElem_mem inside
  | case2 offset inside _ ih => exact ih found
  | case3 => cases found

theorem textBeforeZero_eq (bs : List UInt8) :
    textBeforeZero bs.toArray = (Text.Utf8.strict? (bs.takeWhile (· ≠ 0))).getD "" := by
  have stop : (Octets.zeroFrom? bs.toArray 0).getD bs.length = (bs.takeWhile (· ≠ 0)).length := by
    by_cases zero : 0 ∈ bs
    · obtain ⟨front, behind, rfl, nonzero⟩ := List.eq_append_cons_of_mem zero
      have kept : ∀ b ∈ front, decide (b ≠ 0) = true := fun b listed =>
        decide_eq_true fun same => nonzero (same ▸ listed)
      rw [zeroFrom?_eq (List.drop_zero ..) nonzero, Nat.zero_add, Option.getD_some,
        List.takeWhile_append_of_pos kept]
      simp
    · have kept : ∀ b ∈ bs, decide (b ≠ 0) = true := fun b listed =>
        decide_eq_true fun same => zero (same ▸ listed)
      cases found : Octets.zeroFrom? bs.toArray 0 with
      | none => rw [Option.getD_none, List.takeWhile_eq_self_iff.mpr kept]
      | some stop => exact absurd (List.mem_toArray.mp (zero_mem_of_zeroFrom? found)) zero
  have front : (Array.extract bs.toArray 0 (bs.takeWhile (· ≠ 0)).length).toList =
      bs.takeWhile (· ≠ 0) := by
    have taken := List.prefix_iff_eq_take.mp (List.takeWhile_prefix (p := (· ≠ 0)) (l := bs))
    simpa [List.extract_eq_take_drop] using taken.symm
  rw [textBeforeZero, List.size_toArray, stop, front]

/-! ## The last of a name -/

theorem lastNamed_cons (named : String → Prop) [DecidablePred named] (h : StreamHeader)
    (headers : List StreamHeader) :
    lastNamed named (h :: headers) =
      (lastNamed named headers).or (if named h.name then some h.span else none) := by
  rw [lastNamed, lastNamed]
  by_cases here : named h.name
  · rw [List.filter_cons_of_pos (by simpa using here), List.getLast?_cons, if_pos here]
    cases (headers.filter fun h => named h.name).getLast? <;> rfl
  · rw [List.filter_cons_of_neg (by simpa using here), if_neg here, Option.or_none]

theorem lastNamed_eq_none {named : String → Prop} [DecidablePred named]
    {headers : List StreamHeader} (absent : ∀ h ∈ headers, ¬ named h.name) :
    lastNamed named headers = none := by
  have nothing : (headers.filter fun h => named h.name) = [] :=
    List.filter_eq_nil_iff.mpr fun h listed => by simpa using absent h listed
  rw [lastNamed, nothing]
  rfl

/-- Headers leave what the last one of a name says, and what was found before where there is
none. -/
theorem Streams.Records.foldl_eq {field : Streams → Option Span} {named : String → Prop}
    [DecidablePred named] (law : Records field named) (headers : List StreamHeader)
    (found : Streams) :
    field (headers.foldl record found) = (lastNamed named headers).or (field found) := by
  induction headers generalizing found with
  | nil => rfl
  | cons h headers ih =>
    rw [List.foldl_cons, ih, law, lastNamed_cons, Option.or_assoc]
    split <;> rfl

/-! ## Reading -/

theorem PaddedHeader.reads (p : PaddedHeader) : Reads StreamHeader.read p.octets p.header :=
  reads_padded p.fits p.short p.filled

namespace RootListing

variable (l : RootListing) (behind : List UInt8)

theorem reads_blocks : List.Forall₂ (Reads StreamHeader.read) l.blocks l.headers := by
  refine List.forall₂_map_left_iff.mpr (List.forall₂_map_right_iff.mpr ?_)
  exact List.forall₂_same.mpr fun p _ => p.reads

/-- The octets of the last stream of a name; none where no stream has it. -/
def lastOctets (name : String) : Octets :=
  ((lastNamed (· = name) l.headers).map fun s => s.octets (l.data behind)).getD #[]

theorem octets_of_last {name : String} {found : Span}
    (last : some found = (lastNamed (· = name) l.headers).or (some ⟨0, 0⟩)) :
    found.octets (l.data behind) = l.lastOctets behind name := by
  rw [lastOctets]
  cases here : lastNamed (· = name) l.headers with
  | none =>
    rw [here] at last
    cases last
    simp [Span.octets]
  | some span =>
    rw [here] at last
    cases last
    rfl

/-- A root is read as what it lists: of each name the stream that is listed last. It is refused
where it lists no tables, and for the first stream that does not lie in the metadata. -/
theorem read_listed :
    ((∀ h ∈ l.headers, h.span.isWithin (l.data behind) = true) →
      (∀ tables, lastNamed isTableStream l.headers = some tables →
        Root.read (l.data behind) =
          .ok { version := l.versionText, tables := tables.octets (l.data behind)
                strings := l.lastOctets behind "#Strings"
                blobs := l.lastOctets behind "#Blob" }) ∧
      ((∀ h ∈ l.headers, ¬ isTableStream h.name) →
        Root.read (l.data behind) = .error (.metadata .noTableStream))) ∧
    ∀ h ∈ l.headers, h.span.isWithin (l.data behind) = false →
      ∃ first ∈ l.headers, first.span.isWithin (l.data behind) = false ∧
        Root.read (l.data behind) = .error (.metadata (.streamOutOfBounds first.name)) := by
  have few : l.blocks.length < 0x10000 := (List.length_map ..).symm ▸ l.few
  obtain ⟨c, same, sees, read⟩ := read_blocks l.filler behind l.short few
  change c.data = l.data behind at same
  change Root.read (l.data behind) = _ at read
  constructor
  · intro within
    have tableSpan := Streams.records_tables.foldl_eq l.headers .none
    rw [run_streams l.reads_blocks .none (same ▸ within) sees] at read
    simp only [tableSpan] at read
    constructor
    · intro tables listed
      simp only [listed, Option.some_or] at read
      rw [read, same, rootOf, textBeforeZero_eq,
        l.octets_of_last behind (Streams.records_strings.foldl_eq l.headers .none),
        l.octets_of_last behind (Streams.records_blobs.foldl_eq l.headers .none)]
      rfl
    · intro absent
      simp only [lastNamed_eq_none absent] at read
      exact read
  · intro h listed outside
    cases first : l.headers.find? (fun h => !h.span.isWithin c.data) with
    | none =>
      have inside := List.find?_eq_none.mp first h listed
      rw [same, outside] at inside
      exact absurd rfl inside
    | some h' =>
      obtain ⟨moved, failed⟩ := run_streams_outside l.reads_blocks .none first sees
      rw [failed] at read
      have outside' := List.find?_some first
      rw [same, Bool.not_eq_true'] at outside'
      exact ⟨h', List.mem_of_find?_eq_some first, outside', read⟩

/-- Two table streams and two of strings, which overlap, and blobs right behind the root. The name
of the stream between them has no need of padding. -/
def overlapping : RootListing where
  filler := ⟨1, 1, 0, 0⟩
  version := [0x76, 0x34, 0, 0xff]
  padded :=
    [⟨⟨"#Strings", ⟨0, 4⟩⟩, [0, 0, 0], by decide +kernel, by decide, by decide +kernel⟩,
     ⟨⟨"#~", ⟨4, 8⟩⟩, [7], by decide +kernel, by decide, by decide +kernel⟩,
     ⟨⟨"#US", ⟨0, 1⟩⟩, [], by decide +kernel, by decide, by decide +kernel⟩,
     ⟨⟨"#Blob", ⟨116, 3⟩⟩, [0, 0], by decide +kernel, by decide, by decide +kernel⟩,
     ⟨⟨"#-", ⟨2, 3⟩⟩, [0], by decide +kernel, by decide, by decide +kernel⟩,
     ⟨⟨"#Strings", ⟨1, 3⟩⟩, [0, 0, 0], by decide +kernel, by decide, by decide +kernel⟩]
  short := by decide
  few := by decide

theorem read_listed_overlapping :
    (∃ root, Root.read (overlapping.data [9, 8, 7]) = .ok root ∧ root.version = "v4" ∧
      root.tables = #[0x4a, 0x42, 1] ∧ root.strings = #[0x53, 0x4a, 0x42] ∧
        root.blobs = #[9, 8, 7]) ∧
      Root.read (overlapping.data [9, 8]) = .error (.metadata (.streamOutOfBounds "#Blob")) := by
  constructor
  · have within : ∀ h ∈ overlapping.headers,
        h.span.isWithin (overlapping.data [9, 8, 7]) = true := by decide +kernel
    have read := ((read_listed overlapping [9, 8, 7]).1 within).1 ⟨2, 3⟩ (by decide +kernel)
    exact ⟨_, read, by decide +kernel, by decide +kernel, by decide +kernel, by decide +kernel⟩
  · have only : ∀ h ∈ overlapping.headers, h.span.isWithin (overlapping.data [9, 8]) = false →
        h.name = "#Blob" := by decide +kernel
    obtain ⟨first, listed, outside, read⟩ := (read_listed overlapping [9, 8]).2
      ⟨"#Blob", ⟨116, 3⟩⟩ (by decide +kernel) (by decide +kernel)
    rw [read, only first listed outside]

end RootListing

end WinFloor.Metadata
