import Mathlib.Data.List.Basic
import WinFloor.Proofs.Image.Complete
import WinFloor.Proofs.Metadata.Reading

/-!
Octets written into a file. A part of a file is told by its octets and where they stand. Parts that
follow one another are written over whatever the file had there, and then each stands in the file
(`holds_overlay`). What is read there is what was written.
-/
namespace WinFloor

structure Part where
  offset : Nat
  octets : List UInt8
  deriving DecidableEq, Repr

namespace Part

def stop (p : Part) : Nat := p.offset + p.octets.length

def Before (p q : Part) : Prop := p.stop ≤ q.offset

instance : Trans Before Before Before where
  trans first second := Nat.le_trans first (Nat.le_trans (Nat.le_add_right ..) second)

end Part

namespace Octets

/-- The part stands in the file. -/
def Holds (d : Octets) (p : Part) : Prop := p.octets <+: d.toList.drop p.offset

/-- The file with the part in place of the octets that stood there. -/
def put (d : Octets) (p : Part) : Octets :=
  (d.toList.take p.offset ++ (p.octets ++ d.toList.drop p.stop)).toArray

/-- The file with several parts written into it. -/
def overlay (d : Octets) (parts : List Part) : Octets := parts.foldl put d

variable {d : Octets} {p q : Part}

theorem size_put (inside : p.stop ≤ d.size) : (d.put p).size = d.size := by
  rw [Part.stop] at inside
  have length : d.toList.length = d.size := rfl
  simp only [put, Part.stop, List.size_toArray, List.length_append, List.length_take,
    List.length_drop, length]
  omega

theorem holds_put (inside : p.stop ≤ d.size) : (d.put p).Holds p := by
  have front : p.offset ≤ d.toList.length := Nat.le_trans (Nat.le_add_right ..) inside
  refine ⟨d.toList.drop p.stop, ?_⟩
  rw [put, List.toList_toArray, List.drop_left' (List.length_take_of_le front)]

/-- What stands in front of the part keeps standing. -/
theorem Holds.put (held : d.Holds p) (before : p.Before q) : (d.put q).Holds p := by
  have within : p.octets.length ≤ q.offset - p.offset := by
    rw [Part.Before, Part.stop] at before
    omega
  have kept : p.octets <+: (d.toList.take q.offset).drop p.offset := by
    rw [List.drop_take]
    exact List.prefix_take_iff.mpr ⟨held, within⟩
  rw [Holds, Octets.put, List.toList_toArray, List.drop_append]
  exact kept.trans (List.prefix_append ..)

theorem Holds.overlay {parts : List Part} (held : d.Holds p)
    (before : ∀ q ∈ parts, p.Before q) : (d.overlay parts).Holds p := by
  induction parts generalizing d with
  | nil => exact held
  | cons q parts ih =>
    exact ih (held.put (before q List.mem_cons_self)) fun r listed =>
      before r (List.mem_cons_of_mem _ listed)

theorem size_overlay {parts : List Part} (inside : ∀ p ∈ parts, p.stop ≤ d.size) :
    (d.overlay parts).size = d.size := by
  induction parts generalizing d with
  | nil => rfl
  | cons p parts ih =>
    have size := size_put (inside p List.mem_cons_self)
    exact (ih fun q listed => size.symm ▸ inside q (List.mem_cons_of_mem _ listed)).trans size

theorem holds_overlay {parts : List Part} (ordered : parts.Pairwise Part.Before)
    (inside : ∀ p ∈ parts, p.stop ≤ d.size) : ∀ p ∈ parts, (d.overlay parts).Holds p := by
  induction parts generalizing d with
  | nil => exact fun p listed => absurd listed List.not_mem_nil
  | cons first parts ih =>
    obtain ⟨before, ordered⟩ := List.pairwise_cons.mp ordered
    have size := size_put (inside first List.mem_cons_self)
    rintro p listed
    rcases List.mem_cons.mp listed with rfl | later
    · exact (holds_put (inside p List.mem_cons_self)).overlay before
    · exact ih ordered (fun q m => size.symm ▸ inside q (List.mem_cons_of_mem _ m)) p later

/-! ## Parts of parts -/

theorem Holds.append {offset : Nat} {front rest : List UInt8}
    (held : d.Holds ⟨offset, front ++ rest⟩) :
    d.Holds ⟨offset, front⟩ ∧ d.Holds ⟨offset + front.length, rest⟩ := by
  obtain ⟨behind, whole⟩ := held
  rw [List.append_assoc] at whole
  refine ⟨⟨_, whole⟩, behind, ?_⟩
  rw [← List.drop_drop, ← whole, List.drop_left]

/-- One of several items of the same length. -/
theorem Holds.item {offset size : Nat} {written : α → List UInt8} {items : List α}
    (held : d.Holds ⟨offset, items.flatMap written⟩) (sized : ∀ a, (written a).length = size)
    {i : Nat} (inside : i < items.length) : d.Holds ⟨offset + i * size, written items[i]⟩ := by
  induction items generalizing offset i with
  | nil => exact absurd inside (Nat.not_lt_zero _)
  | cons first items ih =>
    rw [List.flatMap_cons] at held
    obtain ⟨front, rest⟩ := held.append
    cases i with
    | zero => simpa using front
    | succ i =>
      have later := ih rest (Nat.lt_of_succ_lt_succ inside)
      rwa [sized, Nat.add_assoc, Nat.add_comm size, ← Nat.succ_mul] at later

/-! ## What is read where a part stands -/

theorem extract_of_holds {bs : List UInt8} {offset : Nat} (held : d.Holds ⟨offset, bs⟩) :
    (d.extract offset (offset + bs.length)).toList = bs := by
  rw [Metadata.toList_extract_window]
  exact (List.prefix_iff_eq_take.mp held).symm

theorem inside_of_holds {p : Part} (held : d.Holds p) (some : p.octets ≠ []) :
    p.stop ≤ d.size := by
  have room := List.IsPrefix.length_le held
  have filled := List.length_pos_iff.mpr some
  have size : d.toList.length = d.size := rfl
  rw [List.length_drop] at room
  rw [Part.stop]
  omega

theorem slice_of_holds {offset : Nat} {bs : List UInt8} (held : d.Holds ⟨offset, bs⟩)
    (some : bs ≠ []) : d.slice offset bs.length = .ok bs.toArray := by
  refine slice_eq_ok_iff.mpr ⟨inside_of_holds held some, ?_⟩
  exact Array.toList_inj.mp (extract_of_holds held).symm

theorem number_of_holds {offset width n : Nat} (held : d.Holds ⟨offset, toLittleEndian width n⟩)
    (wide : 0 < width) (fits : n < 1 <<< (8 * width)) : d.number offset width = .ok n := by
  have some : toLittleEndian width n ≠ [] := by
    rw [← List.length_pos_iff, length_toLittleEndian]
    exact wide
  have read := slice_of_holds held some
  rw [length_toLittleEndian] at read
  rw [number, read, Except.map_ok, List.toList_toArray, littleEndian_toLittleEndian fits]

theorem numberAt_of_holds {offset width n : Nat} (held : d.Holds ⟨offset, toLittleEndian width n⟩)
    (fits : n < 1 <<< (8 * width)) : d.numberAt offset width = n := by
  have taken := extract_of_holds held
  rw [length_toLittleEndian] at taken
  rw [numberAt, taken, littleEndian_toLittleEndian fits]

end Octets

end WinFloor
