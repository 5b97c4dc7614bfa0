import WinFloor.Metadata.Reader

/-!
The heaps that table columns point into: strings ended by a zero octet, and blobs behind their
length.
-/
namespace WinFloor.Metadata

structure StringHeap where
  data : Octets

/-- The string at an index. It ends at a zero octet or with the heap; an index past the heap and a
string that is not UTF-8 read as empty. -/
def StringHeap.get (h : StringHeap) (index : Nat) : String :=
  let stop := (h.data.zeroFrom? index).getD h.data.size
  (Text.Utf8.strict? (h.data.extract index stop).toList).getD ""

structure BlobHeap where
  data : Octets

/-- The blob at an index. -/
def BlobHeap.get (h : BlobHeap) (index : Nat) : Except Fault Octets :=
  if index ≤ h.data.size then
    (do Reader.take (← Reader.compressed) : Reader Octets).value ⟨h.data, index, 0⟩
  else .error (.outOfBounds index h.data.size)

end WinFloor.Metadata
