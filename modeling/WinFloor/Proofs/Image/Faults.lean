import WinFloor.Proofs.Metadata.Faults

/-!
What can go wrong where parts of the headers of an image are read. A read of a part that is known to
lie in the file does not fail; the others say which part is truncated.
-/
namespace WinFloor

open Metadata (FailsOnly)

namespace Metadata.FailsOnly

theorem mapM {P : Fault → Prop} {items : List α} {read : α → Except Fault β}
    (each : ∀ a ∈ items, FailsOnly P (read a)) : FailsOnly P (items.mapM read) := by
  induction items with
  | nil => exact ok []
  | cons a items ih =>
    rw [List.mapM_cons]
    refine (each a List.mem_cons_self).bind fun b => ?_
    refine (ih fun a listed => each a (List.mem_cons_of_mem _ listed)).bind fun rest => ?_
    exact ok _

end Metadata.FailsOnly

/-! ## Reads inside the file -/

namespace Octets

variable {P : Fault → Prop} {d : Octets} {offset : Nat}

theorem slice_inside {length : Nat} (h : offset + length ≤ d.size) :
    FailsOnly P (d.slice offset length) := by
  rw [slice, if_pos h]
  exact .ok _

theorem number_inside {width : Nat} (h : offset + width ≤ d.size) :
    FailsOnly P (d.number offset width) :=
  (slice_inside h).map _

theorem word_inside (h : offset + 2 ≤ d.size) : FailsOnly P (d.word offset) :=
  (number_inside h).map _

theorem dword_inside (h : offset + 4 ≤ d.size) : FailsOnly P (d.dword offset) :=
  (number_inside h).map _

theorem qword_inside (h : offset + 8 ≤ d.size) : FailsOnly P (d.qword offset) :=
  (number_inside h).map _

theorem lt_of_word_eq_error {f : Fault} (h : d.word offset = .error f) : d.size < offset + 2 := by
  by_cases inside : offset + 2 ≤ d.size
  · exact (word_inside (P := fun _ => False) inside f h).elim
  · exact Nat.not_le.mp inside

end Octets

/-! ## Parts of the headers -/

namespace Image.Header

variable {P : Fault → Prop} {d : Octets} {offset : Nat}

theorem wordOr_fails {defect : ImageDefect} (absent : d.size < offset + 2 → P (.image defect)) :
    FailsOnly P (wordOr d offset defect) := by
  rw [wordOr]
  split
  next => exact .ok _
  next missing => exact .error (absent (Octets.lt_of_word_eq_error missing))

theorem versionAt_inside (h : offset + 4 ≤ d.size) : FailsOnly P (versionAt d offset) := by
  refine (Octets.word_inside (by omega)).bind fun major => ?_
  refine (Octets.word_inside (by omega)).bind fun minor => ?_
  exact .ok _

theorem directoryAt_inside (h : offset + directorySize ≤ d.size) :
    FailsOnly P (directoryAt d offset) := by
  rw [directorySize] at h
  refine (Octets.dword_inside (by omega)).bind fun address => ?_
  refine (Octets.dword_inside (by omega)).bind fun size => ?_
  exact .ok _

/-- The section table need not lie in the file, so each of its headers is looked for first. -/
theorem sectionAt_fails {index count : Nat}
    (truncated : d.size < offset + sectionHeaderSize →
      P (.image (.sectionTableTruncated index count))) :
    FailsOnly P (sectionAt d offset index count) := by
  rw [sectionAt]
  split
  next inside =>
    rw [sectionHeaderSize] at inside
    refine (Octets.dword_inside (by omega)).bind fun memorySize => ?_
    refine (Octets.dword_inside (by omega)).bind fun address => ?_
    refine (Octets.dword_inside (by omega)).bind fun fileSize => ?_
    refine (Octets.dword_inside (by omega)).bind fun fileOffset => ?_
    exact .ok _
  next outside => exact .error (truncated (Nat.not_le.mp outside))

end Image.Header

end WinFloor
