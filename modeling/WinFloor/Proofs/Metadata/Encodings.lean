import WinFloor.Proofs.Metadata.ArgumentForm
import WinFloor.Proofs.Metadata.Heaps

/-!
The encodings of heaps, all of them at once (`encodings_read`). Compressed numbers and strings behind
their length are read back whatever stands behind them, and nothing that is read as a compressed
number is too large for one or starts as the absent string does (`compressed_bounds`). Items of a heap
stand one after the other (`Series`), and each is found where those before it end
(`Series.drop_start`).
-/
namespace WinFloor.Metadata

/-! ## Compressed numbers -/

theorem length_compressedOctets (n : Nat) :
    (compressedOctets n).length = if n < 0x80 then 1 else if n < 0x4000 then 2 else 4 := by
  rw [compressedOctets]
  split
  · rfl
  · split <;> rfl

theorem CompressedForm.lt {bs : List UInt8} {n : Nat} (h : CompressedForm bs n) :
    n < compressedBound := by
  rw [compressedBound]
  cases h with
  | one lead short => omega
  | two lead low least most =>
    have := low.toNat_lt
    omega
  | four lead high mid low least most =>
    have := high.toNat_lt
    have := mid.toNat_lt
    have := low.toNat_lt
    omega

/-- An octet can only be read within the data. -/
theorem inside_of_octet {c c' : Cursor} {n : Nat} (run : Reader.octet.run c = .ok n c') :
    c.origin + c.position ≤ c.data.size := by
  by_contra outside
  have past : ¬c.position + 1 ≤ c.size := by
    rw [Cursor.size]
    omega
  have failed : (Reader.take 1).run c = .error (.outOfBounds c.position c.size) c := if_neg past
  rw [Reader.octet, Reader.number, map_eq_pure_bind, EStateM.run_bind, failed] at run
  cases run

theorem inside_of_compressed {c c' : Cursor} {n : Nat} (run : Reader.compressed.run c = .ok n c') :
    c.origin + c.position ≤ c.data.size := by
  rw [Reader.compressed, EStateM.run_bind] at run
  cases first : Reader.octet.run c with
  | ok lead moved => exact inside_of_octet first
  | error f moved =>
    rw [first] at run
    cases run

theorem compressed_bounds {c c' : Cursor} {n : Nat} (run : Reader.compressed.run c = .ok n c') :
    n < compressedBound ∧ c.peek? ≠ some Reader.nullString := by
  have sees : c.Sees (c.data.toList.drop (c.origin + c.position)) := ⟨inside_of_compressed run, rfl⟩
  obtain ⟨bs, behind, split, -, form⟩ := readsOnly_compressed c c' _ n sees run
  obtain ⟨lead, rest, rfl, apart⟩ := form.eq_cons
  rw [split, List.cons_append] at sees
  refine ⟨form.lt, ?_⟩
  rw [sees.peek?, ne_eq, Option.some.injEq]
  exact apart

/-! ## Heaps -/

/-- Items one after the other, with octets before and behind them. -/
structure Series {α : Type} (written : α → List UInt8) where
  lead : List UInt8
  items : List α
  behind : List UInt8

namespace Series

variable {α : Type} {written : α → List UInt8} (s : Series written)

def octets : Octets := (s.lead ++ s.items.flatMap written ++ s.behind).toArray

/-- Where the item with a number starts. -/
def start (i : Nat) : Nat := s.lead.length + ((s.items.take i).flatMap written).length

theorem drop_start {i : Nat} (inside : i < s.items.length) :
    s.octets.toList.drop (s.start i) =
      written s.items[i] ++ ((s.items.drop (i + 1)).flatMap written ++ s.behind) := by
  have whole : s.items.flatMap written =
      (s.items.take i).flatMap written ++
        (written s.items[i] ++ (s.items.drop (i + 1)).flatMap written) := by
    rw [← List.flatMap_cons, ← List.drop_eq_getElem_cons inside, ← List.flatMap_append,
      List.take_append_drop]
  rw [octets, List.toList_toArray, start, List.append_assoc, ← List.drop_drop, List.drop_left,
    whole, List.append_assoc, List.drop_left, List.append_assoc]

end Series

theorem get_series_blob (s : Series sizedOctets) (short : ∀ bs ∈ s.items, bs.length < compressedBound)
    {i : Nat} (inside : i < s.items.length) :
    (BlobHeap.mk s.octets).get (s.start i) = .ok s.items[i].toArray :=
  get_blob (s.drop_start inside) (short _ (List.getElem_mem inside))

theorem get_series_string (s : Series zeroEnded) (free : ∀ text ∈ s.items, Char.ofNat 0 ∉ text.toList)
    {i : Nat} (inside : i < s.items.length) :
    (StringHeap.mk s.octets).get (s.start i) = s.items[i] :=
  get_string (s.drop_start inside) (free _ (List.getElem_mem inside))

/-- Numbers, strings behind their length, blobs and strings ended by a zero octet are read back as
they were written, numbers and strings in the octets that were written for them. No compressed
number is read that could not have been written, nor from octets that start as the absent string
does. -/
theorem encodings_read {n : Nat} (small : n < compressedBound) {text : String}
    (short : HasLength text) (blobs : Series sizedOctets)
    (sized : ∀ bs ∈ blobs.items, bs.length < compressedBound) (strings : Series zeroEnded)
    (free : ∀ s ∈ strings.items, Char.ofNat 0 ∉ s.toList) :
    ((compressedOctets n).length = (if n < 0x80 then 1 else if n < 0x4000 then 2 else 4) ∧
      Reads Reader.compressed (compressedOctets n) n) ∧
    (∀ c c' m, Reader.compressed.run c = .ok m c' →
      m < compressedBound ∧ c.peek? ≠ some Reader.nullString) ∧
    (∀ (i : Nat) (inside : i < blobs.items.length),
      (BlobHeap.mk blobs.octets).get (blobs.start i) = .ok blobs.items[i].toArray) ∧
    (Reads Reader.string (stringOctets text) (some text) ∧
      Reads Reader.string [Reader.nullString] none) ∧
    ∀ (i : Nat) (inside : i < strings.items.length),
      (StringHeap.mk strings.octets).get (strings.start i) = strings.items[i] := by
  refine ⟨⟨length_compressedOctets n, reads_compressed small⟩, ?_, ?_, ?_, ?_⟩
  · exact fun c c' m run => compressed_bounds run
  · exact fun i inside => get_series_blob blobs sized inside
  · exact ⟨reads_string short, StringForm.null.reads⟩
  · exact fun i inside => get_series_string strings free inside

/-- An empty blob, the shortest with a length of two octets, and one behind these. -/
def wideBlobs : Series sizedOctets := ⟨[0xff], [[], List.replicate 0x80 1, [7, 0]], [0x80]⟩

def plainStrings : Series zeroEnded := ⟨[0x41], ["", "Sleep", "Grün"], [0x42]⟩

theorem encodings_read_widest :
    0x1fffffff < compressedBound ∧ HasLength "Grün" ∧
    (∀ bs ∈ wideBlobs.items, bs.length < compressedBound) ∧
    (∀ s ∈ plainStrings.items, Char.ofNat 0 ∉ s.toList) ∧
    Reads Reader.compressed [0xdf, 0xff, 0xff, 0xff] 0x1fffffff ∧
    Reads Reader.string [5, 0x47, 0x72, 0xc3, 0xbc, 0x6e] (some "Grün") ∧
    (BlobHeap.mk wideBlobs.octets).get 132 = .ok #[7, 0] ∧
    (StringHeap.mk plainStrings.octets).get 8 = "Grün" := by
  have small : 0x1fffffff < compressedBound := by decide
  have short : HasLength "Grün" := by
    rw [HasLength]
    decide +kernel
  have sized : ∀ bs ∈ wideBlobs.items, bs.length < compressedBound := by decide +kernel
  have free : ∀ s ∈ plainStrings.items, Char.ofNat 0 ∉ s.toList := by decide +kernel
  obtain ⟨⟨-, number⟩, -, blobs, ⟨string, -⟩, strings⟩ :=
    encodings_read small short wideBlobs sized plainStrings free
  have widest : compressedOctets 0x1fffffff = [0xdf, 0xff, 0xff, 0xff] := by decide +kernel
  have written : stringOctets "Grün" = [5, 0x47, 0x72, 0xc3, 0xbc, 0x6e] := by decide +kernel
  have blobStart : wideBlobs.start 2 = 132 := by decide +kernel
  have stringStart : plainStrings.start 2 = 8 := by decide +kernel
  refine ⟨small, short, sized, free, widest ▸ number, written ▸ string, ?_, ?_⟩
  · rw [← blobStart, blobs 2 (by decide)]
    rfl
  · rw [← stringStart, strings 2 (by decide)]
    rfl

end WinFloor.Metadata
