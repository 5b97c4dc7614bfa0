import WinFloor.Metadata.Heap
import WinFloor.Proofs.Metadata.AttributeValue

/-!
Heaps that hold given items, each at its place, and that each is found there: strings up to their
zero octet (`get_string`), blobs behind their length (`get_blob`).
-/
namespace WinFloor.Metadata

/-- Octets in which each of the items stands at its place. What else there is does not matter, nor
whether items share their octets. -/
structure Heap {α : Type} (written : α → List UInt8) (items : List α) where
  octets : List UInt8
  place : α → Nat
  stored : ∀ a ∈ items, ∃ behind, octets.drop (place a) = written a ++ behind

/-- The items one after the other, behind octets that are there already. -/
def Heap.packed {α : Type} [DecidableEq α] (written : α → List UInt8) (lead : List UInt8)
    (items : List α) : Heap written items where
  octets := lead ++ items.flatMap written
  place a := lead.length + ((items.take (items.idxOf a)).flatMap written).length
  stored a h := by
    have inside := List.idxOf_lt_length_of_mem h
    have next : items.drop (items.idxOf a) = a :: items.drop (items.idxOf a + 1) := by
      rw [List.drop_eq_getElem_cons inside, List.getElem_idxOf inside]
    refine ⟨(items.drop (items.idxOf a + 1)).flatMap written, ?_⟩
    have whole : items.flatMap written = (items.take (items.idxOf a)).flatMap written ++
        (written a ++ (items.drop (items.idxOf a + 1)).flatMap written) := by
      rw [← List.flatMap_cons, ← next, ← List.flatMap_append, List.take_append_drop]
    rw [whole, ← List.drop_drop, List.drop_left, List.drop_left]

/-! ## Strings -/

theorem zeroFrom?_eq {d : Octets} {offset : Nat} {bs behind : List UInt8}
    (h : d.toList.drop offset = bs ++ 0 :: behind) (nonzero : 0 ∉ bs) :
    d.zeroFrom? offset = some (offset + bs.length) := by
  induction bs generalizing offset with
  | nil =>
    have here : d.toList[offset]? = some 0 := by
      rw [← List.head?_drop, h]
      rfl
    obtain ⟨inside, zero⟩ := List.getElem?_eq_some_iff.mp here
    have inside : offset < d.size := by simpa using inside
    have zero : d[offset] = 0 := by simpa using zero
    rw [Octets.zeroFrom?]
    simp [inside, zero]
  | cons b bs ih =>
    have here : d.toList[offset]? = some b := by
      rw [← List.head?_drop, h]
      rfl
    obtain ⟨inside, first⟩ := List.getElem?_eq_some_iff.mp here
    have inside : offset < d.size := by simpa using inside
    have first : d[offset] = b := by simpa using first
    rw [List.mem_cons, not_or] at nonzero
    have apart : ¬ d[offset] = 0 := by
      rw [first]
      exact Ne.symm nonzero.1
    have ahead : d.toList.drop (offset + 1) = bs ++ 0 :: behind := by
      rw [← List.drop_drop, h]
      rfl
    have later := ih ahead nonzero.2
    rw [Octets.zeroFrom?, dif_pos inside, if_neg apart, later, List.length_cons, Nat.add_assoc,
      Nat.add_comm 1]

/-- A string ended by a zero octet. -/
def zeroEnded (s : String) : List UInt8 := Text.Utf8.encode s ++ [0]

theorem get_string {h : StringHeap} {index : Nat} {s : String} {behind : List UInt8}
    (there : h.data.toList.drop index = zeroEnded s ++ behind) (free : Char.ofNat 0 ∉ s.toList) :
    h.get index = s := by
  rw [zeroEnded, List.append_assoc, List.singleton_append] at there
  have stop := zeroFrom?_eq there (Text.Utf8.zero_not_mem_encode free)
  have octets : (h.data.extract index (index + (Text.Utf8.encode s).length)).toList =
      Text.Utf8.encode s := by
    rw [toList_extract_window, there, List.take_left]
  rw [StringHeap.get, stop, Option.getD_some, octets, Text.Utf8.strict?_encode, Option.getD_some]

/-! ## Blobs -/

theorem get_blob {h : BlobHeap} {index : Nat} {bs behind : List UInt8}
    (there : h.data.toList.drop index = sizedOctets bs ++ behind)
    (short : bs.length < compressedBound) : h.get index = .ok bs.toArray := by
  have inside : index ≤ h.data.size := by
    obtain ⟨lead, rest, first, -⟩ := compressedOctets_eq_cons short
    have room := congrArg List.length there
    rw [sizedOctets, first] at room
    simp only [List.length_drop, Array.length_toList, List.cons_append, List.length_cons] at room
    omega
  have sees : (Cursor.mk h.data index 0).Sees (sizedOctets bs ++ behind) := ⟨inside, there⟩
  rw [BlobHeap.get, if_pos inside, Reader.value, reads_sized short _ _ sees]

end WinFloor.Metadata
