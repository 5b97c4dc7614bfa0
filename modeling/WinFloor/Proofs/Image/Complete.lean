import WinFloor.Proofs.Image.Faults

/-!
Which files have headers of an image. What a file says about the extent of its headers stands at
fixed places; where they are signed, of a known format and all in the file (`Complete`), they are
read, and every other file is refused as no well-formed image (`read_complete_or_malformed`).
-/
namespace WinFloor

open Metadata (FailsOnly)

/-! ## Numbers that are there -/

namespace Octets

/-- The number in the `width` octets from `offset` on, as far as they are there. -/
def numberAt (d : Octets) (offset width : Nat) : Nat :=
  littleEndian (d.extract offset (offset + width)).toList

variable {d : Octets} {offset width : Nat}

theorem numberAt_lt : d.numberAt offset width < 1 <<< (8 * width) := by
  have bound := littleEndian_lt (d.extract offset (offset + width)).toList
  have few : (d.extract offset (offset + width)).toList.length ≤ width := by
    rw [Array.length_toList, Array.size_extract]
    omega
  refine Nat.lt_of_lt_of_le bound ?_
  rw [Nat.one_shiftLeft, Nat.one_shiftLeft]
  exact Nat.pow_le_pow_right (by decide) (Nat.mul_le_mul_left 8 few)

theorem number_eq (d : Octets) (offset width : Nat) :
    d.number offset width =
      if offset + width ≤ d.size then .ok (d.numberAt offset width)
      else .error (.outOfBounds offset d.size) := by
  rw [number, slice]
  split <;> rfl

theorem eq_of_word_eq_ok {w : UInt16} (h : d.word offset = .ok w) :
    w = UInt16.ofNat (d.numberAt offset 2) := by
  rw [word, number_eq] at h
  split at h
  next => cases h; rfl
  next => cases h

theorem eq_of_dword_eq_ok {w : UInt32} (h : d.dword offset = .ok w) :
    w = UInt32.ofNat (d.numberAt offset 4) := by
  rw [dword, number_eq] at h
  split at h
  next => cases h; rfl
  next => cases h

end Octets

theorem exists_of_map_eq_ok {r : Except Fault α} {f : α → β} {b : β} (h : f <$> r = .ok b) :
    ∃ a, r = .ok a ∧ f a = b := by
  cases r with
  | error => cases h
  | ok a => exact ⟨a, rfl, Except.ok.inj h⟩

theorem exists_of_mapM_eq_ok {read : α → Except Fault β} {items : List α} {results : List β}
    (h : items.mapM read = .ok results) : ∀ a ∈ items, ∃ b, read a = .ok b := by
  induction items generalizing results with
  | nil => exact fun a listed => absurd listed List.not_mem_nil
  | cons first items ih =>
    rw [List.mapM_cons] at h
    cases here : read first with
    | error f =>
      rw [here] at h
      cases h
    | ok b =>
      cases later : items.mapM read with
      | error f =>
        rw [here, later] at h
        cases h
      | ok rest =>
        intro a listed
        rcases List.mem_cons.mp listed with rfl | among
        · exact ⟨b, here⟩
        · exact ih later a among

namespace Image.Header

variable {d : Octets}

/-! ## The extent of the headers -/

/-- Where the headers of the image start. -/
def start (d : Octets) : Nat := d.numberAt 0x3c 4

def sectionCount (d : Octets) : Nat := d.numberAt (start d + 4 + 2) 2

def optionalSize (d : Octets) : Nat := d.numberAt (start d + 4 + 16) 2

def optionalStart (d : Octets) : Nat := start d + 4 + coffHeaderSize

def magic (d : Octets) : UInt16 := UInt16.ofNat (d.numberAt (optionalStart d) 2)

/-- Where the section table ends, behind the optional header. -/
def stop (d : Octets) : Nat :=
  optionalStart d + optionalSize d + sectionCount d * sectionHeaderSize

/-- The headers are signed, the optional header is of a known format and has room for its fields,
and all of them lie in the file up to the end of the section table. -/
structure Complete (d : Octets) : Prop where
  large : 64 ≤ d.size
  dos : d.startsWith dosSignature = true
  signed : (d.extract (start d) (start d + 4)).toList = imageSignature
  known : ∃ format, Format.ofMagic? (magic d) = some format ∧
    format.directoryOffset ≤ optionalSize d
  inside : stop d ≤ d.size

/-- The fault says that the file is no well-formed image. -/
def Malformed (f : Fault) : Prop := f.isImageFault = true

/-- There is a result where the file is complete, and else a fault that says it is no well-formed
image. -/
def Settles (complete : Prop) (r : Except Fault α) : Prop :=
  (complete ∧ ∃ a, r = .ok a) ∨ (¬complete ∧ ∃ f, r = .error f ∧ Malformed f)

namespace Settles

variable {complete : Prop}

theorem error {f : Fault} (refused : ¬complete) (h : Malformed f) :
    Settles complete (.error f : Except Fault α) :=
  .inr ⟨refused, f, rfl, h⟩

theorem bind {r : Except Fault α} {next : α → Except Fault β}
    (h : FailsOnly (fun f => ¬complete ∧ Malformed f) r)
    (after : ∀ a, r = .ok a → Settles complete (next a)) : Settles complete (r >>= next) := by
  cases r with
  | error f => exact error (h f rfl).1 (h f rfl).2
  | ok a => exact after a rfl

theorem throwing {c : Prop} [Decidable c] {f : Fault} {next : Unit → Except Fault α}
    (h : Malformed f) (refused : c → ¬complete) (after : ¬c → Settles complete (next ())) :
    Settles complete (if c then throw f >>= next else next ()) := by
  by_cases checked : c
  · rw [if_pos checked]
    exact error (refused checked) h
  · rw [if_neg checked]
    exact after checked

end Settles

/-! ## Reading -/

theorem eq_of_wordOr_eq_ok {offset : Nat} {defect : ImageDefect} {w : UInt16}
    (h : wordOr d offset defect = .ok w) : w = UInt16.ofNat (d.numberAt offset 2) := by
  rw [wordOr] at h
  split at h
  next found =>
    cases h
    exact Octets.eq_of_word_eq_ok found
  next => cases h

theorem eq_of_map_wordOr_eq_ok {offset n : Nat} {defect : ImageDefect}
    (h : UInt16.toNat <$> wordOr d offset defect = .ok n) : n = d.numberAt offset 2 := by
  obtain ⟨w, found, rfl⟩ := exists_of_map_eq_ok h
  rw [eq_of_wordOr_eq_ok found]
  exact UInt16.toNat_ofNat_of_lt Octets.numberAt_lt

theorem eq_start_of_map_dword {n : Nat} (h : UInt32.toNat <$> d.dword 0x3c = .ok n) :
    n = start d := by
  obtain ⟨w, found, rfl⟩ := exists_of_map_eq_ok h
  rw [Octets.eq_of_dword_eq_ok found]
  exact UInt32.toNat_ofNat_of_lt Octets.numberAt_lt

theorem inside_of_sectionAt {offset index count : Nat} {s : Section}
    (h : sectionAt d offset index count = .ok s) : offset + sectionHeaderSize ≤ d.size := by
  rw [sectionAt] at h
  split at h
  next inside => exact inside
  next => cases h

/-- If there is a section at all, the last one tells where the table ends. -/
theorem inside_of_sections {offset count : Nat} {sections : List Section}
    (inside : offset ≤ d.size)
    (read : ((List.range count).mapM fun i =>
      sectionAt d (offset + i * sectionHeaderSize) i count) = .ok sections) :
    offset + count * sectionHeaderSize ≤ d.size := by
  cases count with
  | zero => simpa using inside
  | succ last =>
    obtain ⟨s, there⟩ := exists_of_mapM_eq_ok read last (List.mem_range.mpr (Nat.lt_succ_self _))
    have := inside_of_sectionAt there
    rwa [Nat.add_assoc, ← Nat.succ_mul] at this

/-- The fixed part of the headers is in the file with the rest. -/
theorem Complete.fixed (h : Complete d) : optionalStart d + 96 ≤ d.size := by
  obtain ⟨format, -, room⟩ := h.known
  have least : 96 ≤ format.directoryOffset := by cases format <;> decide
  have := h.inside
  rw [stop] at this
  omega

/-- With the optional header in the file, all that is left to find out is whether the section table
is too. -/
theorem settles_ofOptional {machine : UInt16} {format : Format}
    (framed : stop d ≤ d.size → Complete d) (room : format.directoryOffset ≤ optionalSize d)
    (inside : optionalStart d + optionalSize d ≤ d.size) :
    Settles (Complete d)
      (ofOptional d machine format (optionalStart d) (optionalSize d) (sectionCount d)) := by
  have least : 96 ≤ format.directoryOffset := by cases format <;> decide
  unfold ofOptional
  extract_lets directoryBase behindBase
  have rest (imageBase : UInt64) : Settles (Complete d) (behindBase imageBase) := by
    refine .bind (versionAt_inside (by omega)) fun osVersion _ => ?_
    refine .bind (versionAt_inside (by omega)) fun subsystemVersion _ => ?_
    refine .bind (Octets.dword_inside (by omega)) fun headerSize _ => ?_
    refine .bind (Octets.word_inside (by omega)) fun subsystem _ => ?_
    refine .bind (Octets.dword_inside (by omega)) fun declared _ => ?_
    refine .bind (FailsOnly.mapM fun i listed => directoryAt_inside ?_) fun directories _ => ?_
    · -- No more directories are read than the optional header has room for.
      have few := List.mem_range.mp listed
      rw [directoryCount] at few
      simp only [directorySize] at few ⊢
      omega
    refine .bind (FailsOnly.mapM fun i listed => sectionAt_fails fun outside => ?_)
      fun sections read => ?_
    · refine ⟨fun complete => ?_, rfl⟩
      have := complete.inside
      rw [stop] at this
      have among := List.mem_range.mp listed
      simp only [sectionHeaderSize] at outside this
      omega
    · exact .inl ⟨framed (inside_of_sections inside read), _, rfl⟩
  cases format with
  | pe32 => exact .bind ((Octets.number_inside (by omega)).map _) fun base _ => rest base
  | pe32Plus => exact .bind (Octets.qword_inside (by omega)) fun base _ => rest base

theorem settles_ofFormat {machine : UInt16} {format : Format}
    (known : Format.ofMagic? (magic d) = some format)
    (framed : format.directoryOffset ≤ optionalSize d → stop d ≤ d.size → Complete d) :
    Settles (Complete d) (do
      if optionalSize d < format.directoryOffset then
        throw (.image (.optionalHeaderTooSmall (optionalSize d)))
      if d.size < optionalStart d + optionalSize d then throw (.image .optionalHeaderTruncated)
      ofOptional d machine format (optionalStart d) (optionalSize d) (sectionCount d)) := by
  refine .throwing rfl (fun narrow complete => ?_) fun room => ?_
  · obtain ⟨format', named, room⟩ := complete.known
    rw [known] at named
    cases named
    omega
  refine .throwing rfl (fun outside complete => ?_) fun inside => ?_
  · have stops := complete.inside
    rw [stop] at stops
    omega
  have room := Nat.not_lt.mp room
  exact settles_ofOptional (framed room) room (Nat.not_lt.mp inside)

theorem settles_read (d : Octets) : Settles (Complete d) (read d) := by
  -- All that is read before the format is known lies in front of the end of the fixed part.
  have refused {place : Nat} (outside : d.size < place) (fixed : place ≤ optionalStart d + 96) :
      ¬Complete d := by
    intro complete
    have := complete.fixed
    omega
  have optional : optionalStart d = start d + 4 + 20 := rfl
  rw [read]
  refine .throwing rfl (fun unsigned complete => ?_) fun signed => ?_
  · simp [complete.dos, Nat.not_lt.mpr complete.large] at unsigned
  simp only [Bool.or_eq_true, decide_eq_true_eq, not_or, Nat.not_lt, Bool.not_eq_true',
    Bool.not_eq_false] at signed
  obtain ⟨large, dos⟩ := signed
  refine .bind ((Octets.dword_inside (by omega)).map _) fun first found => ?_
  obtain rfl : first = start d := eq_start_of_map_dword found
  cases sliced : d.slice (start d) 4 with
  | error f =>
    have outside := (Octets.slice_eq_error_iff.mp sliced).1
    exact .error (refused outside (by omega)) rfl
  | ok signature =>
    obtain ⟨-, rfl⟩ := Octets.slice_eq_ok_iff.mp sliced
    refine .throwing rfl (fun other complete => other complete.signed) fun signed => ?_
    refine .bind (wordOr_fails fun outside => ⟨refused outside (by omega), rfl⟩)
      fun machine _ => ?_
    refine .bind ((wordOr_fails fun outside => ⟨refused outside (by omega), rfl⟩).map _)
      fun count counted => ?_
    obtain rfl : count = sectionCount d := eq_of_map_wordOr_eq_ok counted
    refine .bind ((wordOr_fails fun outside => ⟨refused outside (by omega), rfl⟩).map _)
      fun size sized => ?_
    obtain rfl : size = optionalSize d := eq_of_map_wordOr_eq_ok sized
    have magicThere : start d + 4 + coffHeaderSize + 2 ≤ optionalStart d + 96 :=
      Nat.add_le_add_left (by decide) _
    refine .bind (wordOr_fails fun outside => ⟨refused outside magicThere, rfl⟩)
      fun word found => ?_
    obtain rfl : word = magic d := eq_of_wordOr_eq_ok found
    cases known : Format.ofMagic? (magic d) with
    | none =>
      refine .error (fun complete => ?_) rfl
      obtain ⟨format, named, -⟩ := complete.known
      rw [known] at named
      cases named
    | some format =>
      exact settles_ofFormat known fun room stops =>
        ⟨large, dos, Decidable.not_not.mp signed, ⟨format, known, room⟩, stops⟩

theorem complete_of_read {header : Header} (read : Header.read d = .ok header) : Complete d := by
  rcases settles_read d with ⟨complete, -⟩ | ⟨-, f, failed, -⟩
  · exact complete
  · cases read.symm.trans failed

theorem read_isImageFault (d : Octets) : FailsOnly Malformed (read d) := by
  intro f failed
  rcases settles_read d with ⟨-, header, read⟩ | ⟨-, g, read, malformed⟩
  · rw [read] at failed
    cases failed
  · rw [read] at failed
    cases failed
    exact malformed

/-- The headers of a complete file are read. Every other file is refused for its signatures, its
format or a part that is not there, which is to say that it is no well-formed image, and never for a
read that leaves the file. -/
theorem read_complete_or_malformed (d : Octets) :
    (Complete d ∧ ∃ header, read d = .ok header) ∨
    (¬Complete d ∧ ∃ f, read d = .error f ∧
      (f = .dosSignature ∨ f = .imageSignature ∨ (∃ magic, f = .optionalHeaderMagic magic) ∨
        ∃ defect, f = .image defect) ∧
      f.isImageFault = true ∧ f.exitCode = 5 ∧ ∀ offset size, f ≠ .outOfBounds offset size) := by
  refine (settles_read d).imp_right fun ⟨refused, f, failed, malformed⟩ => ?_
  have code : f.exitCode = 5 := beq_iff_eq.mp malformed
  refine ⟨refused, f, failed, ?_, malformed, code, ?_⟩
  · cases f <;> simp [Fault.exitCode] at code ⊢
  · rintro offset size rfl
    cases code

end Image.Header

end WinFloor
