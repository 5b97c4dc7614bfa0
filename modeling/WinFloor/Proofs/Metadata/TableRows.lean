import WinFloor.Proofs.Metadata.TableSet

/-!
The rows of a table stream. Each table is found where its rows were written (`holds_extents`), and
so the stream gives back the row counts, the rows and the cells it was made of (`read_octets`).
-/
namespace WinFloor.Metadata

/-! ## Widths -/

theorem le_foldl_max_iff (ns : List Nat) (least n : Nat) :
    n ≤ ns.foldl max least ↔ n ≤ least ∨ ∃ m ∈ ns, n ≤ m := by
  induction ns generalizing least with
  | nil => simp
  | cons m ns ih =>
    have larger : n ≤ max least m ↔ n ≤ least ∨ n ≤ m := by omega
    simp only [List.foldl_cons, ih, larger, List.mem_cons, exists_eq_or_imp, or_assoc]

namespace TableSet

theorem mem_present {s : TableSet} {t : Table} : t ∈ s.present ↔ s.has t = true := by
  have listed : t ∈ Table.all := List.mem_of_getElem? (Table.ofId?_id t)
  rw [present, Standard.map_table_entries, List.mem_filter, and_iff_right listed]

theorem rows_eq_nil {s : TableSet} {t : Table} (h : t ∉ s.present) : s.rows t = [] := by
  rw [mem_present, has] at h
  cases found : s.rows? t with
  | none => simp [rows, found]
  | some rows => simp [found] at h

theorem rows_head (s : TableSet) (t : Table) : s.head.rows t = s.count t := by
  have found (ts : List Table) :
      (ts.map fun u => (u.id, s.count u)).lookup t.id =
        if t ∈ ts then some (s.count t) else none := by
    induction ts with
    | nil => rfl
    | cons u ts ih =>
      rw [List.map_cons, List.lookup_cons, ih]
      by_cases same : t = u
      · simp [same]
      · have apart : (t.id == u.id) = false := by
          simpa using fun h => same (Table.id_injective h)
        simp [apart, same]
  rw [StreamHead.rows, head, found]
  by_cases there : t ∈ s.present
  · simp [there]
  · simp [there, count, rows_eq_nil there]

theorem columnWidth_head (s : TableSet) (c : Column) :
    s.head.columnWidth c = s.width (Standard.ofColumn c) := by
  have heap (bit : Nat) :
      s.head.heapWidth bit = if s.heapFlags.toNat.testBit bit then 4 else 2 := by
    rw [StreamHead.heapWidth, StreamHead.narrowOrWide, head]
    cases s.heapFlags.toNat.testBit bit <;> rfl
  cases c with
  | word => rfl
  | dword => rfl
  | string => exact heap 0
  | guid => exact heap 1
  | blob => exact heap 2
  | row t =>
    simp only [StreamHead.columnWidth, StreamHead.rowWidth, StreamHead.narrowOrWide,
      Standard.ofColumn, width, rows_head, decide_eq_true_eq, ← Nat.not_le]
    split <;> simp_all
  | coded k =>
    have most : 1 <<< (16 - k.tagBits) ≤ s.head.mostRows k ↔
        k.tables.any (·.any fun t => 1 <<< (16 - k.tagBits) ≤ s.count t) = true := by
      have some : ¬ 1 <<< (16 - k.tagBits) ≤ 0 := by simp [Nat.shiftLeft_eq]
      rw [StreamHead.mostRows, le_foldl_max_iff]
      simp [some, rows_head, Option.any_eq_true]
    simp only [StreamHead.columnWidth, StreamHead.codedWidth, StreamHead.narrowOrWide,
      Standard.ofColumn, width, Standard.tables_ofIndex, Standard.tagBits_ofIndex,
      decide_eq_true_eq, ← most, ← Nat.not_le]
    split <;> simp_all

theorem widths_head (s : TableSet) (t : Table) : s.head.widths t = s.widths t := by
  rw [StreamHead.widths, widths, ← Standard.map_ofColumn_columns, List.map_map]
  exact List.map_congr_left fun c _ => s.columnWidth_head c

theorem width_le (s : TableSet) (f : Standard.Field) : s.width f ≤ 4 := by
  cases f <;> simp only [width] <;> (try split) <;> decide

end TableSet

/-! ## Rows of cells -/

/-- How many octets cells of the given widths take. -/
theorem length_flatten_cells {widths row : List Nat} (h : widths.length = row.length) :
    (List.zipWith toLittleEndian widths row).flatten.length = widths.foldl (· + ·) 0 := by
  induction widths generalizing row with
  | nil => simp
  | cons width widths ih =>
    cases row with
    | nil => simp at h
    | cons cell row =>
      rw [List.zipWith_cons_cons, List.flatten_cons, List.length_append, length_toLittleEndian,
        ih (by simpa using h), List.foldl_cons, Nat.zero_add, foldl_sum widths width]

/-- Cells that fit are read back where they were written, the offsets counting from a place that is
`before` them. -/
theorem littleEndian_cell {widths row : List Nat}
    (h : List.Forall₂ (fun width value => value < 1 <<< (8 * width)) widths row)
    (before behind : List UInt8) {column : Nat} (inRow : column < row.length) :
    ∃ cell, (cells before.length widths)[column]? = some cell ∧ cell.width ∈ widths ∧
      littleEndian (((before ++ (List.zipWith toLittleEndian widths row).flatten ++ behind).drop
        cell.offset).take cell.width) = row[column] := by
  induction h generalizing before column with
  | nil => exact absurd inRow (Nat.not_lt_zero _)
  | @cons width value widths row fits _ ih =>
    rw [List.zipWith_cons_cons, List.flatten_cons]
    cases column with
    | zero =>
      refine ⟨⟨before.length, width⟩, rfl, List.mem_cons_self, ?_⟩
      simp [List.append_assoc, littleEndian_toLittleEndian fits]
    | succ column =>
      obtain ⟨cell, found, listed, value⟩ :=
        ih (before ++ toLittleEndian width value) (by simpa using inRow)
      refine ⟨cell, ?_, List.mem_cons_of_mem _ listed, ?_⟩
      · simpa [cells] using found
      · simpa [List.append_assoc] using value

theorem littleEndian_lt_dword {bs : List UInt8} (h : bs.length ≤ 4) :
    littleEndian bs < 0x100000000 := by
  have bound := littleEndian_lt bs
  have wider : 1 <<< (8 * bs.length) ≤ 1 <<< (8 * 4) := by
    rw [Nat.shiftLeft_eq, Nat.shiftLeft_eq]
    exact Nat.mul_le_mul_left 1 (Nat.pow_le_pow_right (by decide) (by omega))
  omega

theorem length_blocks {f : α → List UInt8} {size : Nat} {xs : List α}
    (h : ∀ x ∈ xs, (f x).length = size) : (xs.flatMap f).length = size * xs.length := by
  induction xs with
  | nil => rfl
  | cons x xs ih =>
    have rest := ih fun y hy => h y (List.mem_cons_of_mem _ hy)
    rw [List.flatMap_cons, List.length_append, h x List.mem_cons_self, rest, List.length_cons,
      Nat.mul_succ, Nat.add_comm]

theorem drop_block {f : α → List UInt8} {size : Nat} {xs : List α}
    (h : ∀ x ∈ xs, (f x).length = size) (behind : List UInt8) {i : Nat} (inside : i < xs.length) :
    ∃ rest, (xs.flatMap f ++ behind).drop (i * size) = f xs[i] ++ rest := by
  induction xs generalizing i with
  | nil => exact absurd inside (Nat.not_lt_zero _)
  | cons x xs ih =>
    have first : (f x).length = size := h x List.mem_cons_self
    cases i with
    | zero => exact ⟨xs.flatMap f ++ behind, by simp⟩
    | succ i =>
      obtain ⟨rest, found⟩ :=
        ih (fun y hy => h y (List.mem_cons_of_mem _ hy)) (i := i) (by simpa using inside)
      refine ⟨rest, ?_⟩
      rw [List.flatMap_cons, List.append_assoc, Nat.succ_mul, Nat.add_comm, ← List.drop_drop,
        ← first, List.drop_left, first, found]
      rfl

/-! ## Tables -/

/-- The cells of a row. -/
def Row.Shows (r : Row) (cells : List Nat) : Prop :=
  ∀ column (inRow : column < cells.length), (r.get column).toNat = cells[column]

namespace TableSet

variable {s : TableSet}

theorem length_row (fits : s.Fits) {t : Table} {row : List Nat} (h : row ∈ s.rows t) :
    (s.widths t).length = row.length :=
  (fits.cells t row h).length_eq

theorem length_rowOctets (fits : s.Fits) {t : Table} {row : List Nat} (h : row ∈ s.rows t) :
    (s.rowOctets t row).length = (s.widths t).foldl (· + ·) 0 :=
  length_flatten_cells (length_row fits h)

theorem length_tableOctets (fits : s.Fits) (t : Table) :
    (s.tableOctets t).length = (s.widths t).foldl (· + ·) 0 * s.count t :=
  length_blocks fun _ h => length_rowOctets fits h

/-- Where the tables lie if the first starts at `start`. -/
def extents (s : TableSet) : (start : Nat) → List Table → List Extent
  | _, [] => []
  | start, t :: ts =>
    let extent := { table := t, start, rows := s.count t, widths := s.widths t : Extent }
    extent :: s.extents extent.stop ts

theorem layOut_head (fits : s.Fits) {size start : Nat} {ts : List Table}
    (room : start + (ts.flatMap s.tableOctets).length ≤ size) :
    layOut s.head size start (ts.map fun t => (t.id, s.count t)) = .ok (s.extents start ts) := by
  induction ts generalizing start with
  | nil => rfl
  | cons t ts ih =>
    rw [List.flatMap_cons, List.length_append, length_tableOctets fits] at room
    have later : start + (s.widths t).foldl (· + ·) 0 * s.count t +
        (ts.flatMap s.tableOctets).length ≤ size := by omega
    have rest := ih later
    have inside : start + (s.widths t).foldl (· + ·) 0 * s.count t ≤ size := by omega
    simp only [List.map_cons, layOut, Table.ofId?_id, widths_head, Extent.stop, Extent.rowSize,
      inside, ↓reduceIte, rest, extents]
    rfl

/-- The octets of a table stand in `d` where the extent says. -/
structure Holds (s : TableSet) (d : List UInt8) (e : Extent) : Prop where
  rows : e.rows = s.count e.table
  widths : e.widths = s.widths e.table
  octets : ∃ behind, d.drop e.start = s.tableOctets e.table ++ behind

theorem holds_extents (fits : s.Fits) {d behind : List UInt8} {start : Nat} {ts : List Table}
    (h : d.drop start = ts.flatMap s.tableOctets ++ behind) :
    ∀ e ∈ s.extents start ts, s.Holds d e := by
  induction ts generalizing start with
  | nil => simp [extents]
  | cons t ts ih =>
    rw [List.flatMap_cons, List.append_assoc] at h
    intro e he
    rcases List.mem_cons.mp he with rfl | later
    · exact ⟨rfl, rfl, _, h⟩
    · apply ih _ e later
      rw [Extent.stop, Extent.rowSize, ← length_tableOctets fits, ← List.drop_drop, h,
        List.drop_left]

theorem map_table_extents (s : TableSet) (start : Nat) (ts : List Table) :
    (s.extents start ts).map Extent.table = ts := by
  induction ts generalizing start with
  | nil => rfl
  | cons t ts ih => rw [extents, List.map_cons, ih]

end TableSet

/-- What a stream has to give back. -/
structure Tables.Gives (t : Tables) (s : TableSet) : Prop where
  rowCount : ∀ table, t.rowCount table = s.count table
  noRow : ∀ table number, number = 0 ∨ s.count table < number → t.row? table number = none
  row : ∀ table i (inside : i < s.count table),
    ∃ row, t.row? table (i + 1) = some row ∧ row.Shows ((s.rows table).get ⟨i, inside⟩)

namespace Tables

theorem row?_of_mem_rows {t : Tables} {table : Table} {numbered : Nat × Row}
    (h : numbered ∈ t.rows table) : t.row? table numbered.1 = some numbered.2 := by
  obtain ⟨number, _, found⟩ := List.mem_filterMap.mp h
  obtain ⟨row, there, rfl⟩ := Option.map_eq_some_iff.mp found
  exact there

/-- All rows are listed, in their order. The induction is on how many have been. -/
theorem Gives.rows {t : Tables} {s : TableSet} (h : t.Gives s) (table : Table) :
    (t.rows table).map Prod.fst = List.range' 1 (s.count table) ∧
    List.Forall₂ (fun numbered cells => numbered.2.Shows cells) (t.rows table) (s.rows table) := by
  have listed (k : Nat) (upTo : k ≤ s.count table) :
      let first := (List.range' 1 k).filterMap fun n => (t.row? table n).map (n, ·)
      first.map Prod.fst = List.range' 1 k ∧
      List.Forall₂ (fun numbered cells => numbered.2.Shows cells) first
        ((s.rows table).take k) := by
    induction k with
    | zero => exact ⟨rfl, .nil⟩
    | succ k ih =>
      obtain ⟨numbers, shown⟩ := ih (by omega)
      have inside : k < (s.rows table).length := upTo
      obtain ⟨row, there, shows⟩ := h.row table k inside
      rw [List.range'_1_concat, List.filterMap_append, List.take_add_one,
        List.getElem?_eq_getElem inside]
      have last : [1 + k].filterMap (fun n => (t.row? table n).map (n, ·)) = [(1 + k, row)] := by
        simp [Nat.add_comm 1 k, there]
      rw [last]
      constructor
      · rw [List.map_append, numbers]
        rfl
      · exact List.rel_append shown (.cons shows .nil)
  have whole := listed (s.count table) (Nat.le_refl _)
  rw [TableSet.count, List.take_length] at whole
  rwa [Tables.rows, h.rowCount]

end Tables

namespace TableSet

variable {s : TableSet}

/-- A row of a table that lies in the stream. -/
theorem Holds.shows {d : Octets} {e : Extent} (fits : s.Fits) (h : s.Holds d.toList e) {i : Nat}
    (inside : i < (s.rows e.table).length) :
    (Row.mk d (e.start + i * e.rowSize) (cells 0 e.widths)).Shows (s.rows e.table)[i] := by
  intro column inRow
  have member := List.getElem_mem inside
  obtain ⟨behind, whole⟩ := h.octets
  obtain ⟨rest, here⟩ := drop_block (fun _ hr => length_rowOctets fits hr) behind inside
  obtain ⟨cell, found, listed, value⟩ :=
    littleEndian_cell (fits.cells e.table _ member) [] rest inRow
  have narrow : cell.width ≤ 4 := by
    obtain ⟨c, _, same⟩ := List.mem_map.mp listed
    exact same ▸ s.width_le c
  have start : d.toList.drop (e.start + i * e.rowSize + cell.offset) =
      (s.rowOctets e.table (s.rows e.table)[i] ++ rest).drop cell.offset := by
    rw [Extent.rowSize, h.widths, ← List.drop_drop, ← List.drop_drop, whole, ← here]
    rfl
  rw [List.nil_append] at value
  have small : (s.rows e.table)[i][column] < 0x100000000 := by
    rw [← value]
    exact littleEndian_lt_dword (Nat.le_trans (List.length_take_le ..) narrow)
  rw [List.length_nil] at found
  rw [Row.get, h.widths]
  simp only [found, toList_extract_window, start, rowOctets, value]
  exact UInt32.toNat_ofNat_of_lt small

theorem gives_extents (fits : s.Fits) {d : Octets} {start : Nat} {behind : List UInt8}
    (h : d.toList.drop start = s.present.flatMap s.tableOctets ++ behind) :
    Tables.Gives ⟨d, s.extents start s.present⟩ s := by
  have found (table : Table) :
      ((s.extents start s.present).find? (·.table = table) = none ∧ s.rows table = []) ∨
      ∃ e, (s.extents start s.present).find? (·.table = table) = some e ∧ s.Holds d.toList e ∧
        e.table = table := by
    cases search : (s.extents start s.present).find? (·.table = table) with
    | none =>
      left
      refine ⟨rfl, rows_eq_nil ?_⟩
      rw [← s.map_table_extents start s.present]
      simpa using search
    | some e =>
      have right := List.find?_some search
      exact .inr ⟨e, rfl, holds_extents fits h e (List.mem_of_find?_eq_some search),
        by simpa using right⟩
  constructor
  · intro table
    rcases found table with ⟨search, no⟩ | ⟨e, search, holds, rfl⟩
    · simp [Tables.rowCount, Tables.extent?, search, count, no]
    · simp [Tables.rowCount, Tables.extent?, search, holds.rows]
  · intro table number outside
    rcases found table with ⟨search, -⟩ | ⟨e, search, holds, rfl⟩
    · simp [Tables.row?, Tables.extent?, search]
    · have : ¬ (0 < number ∧ number ≤ e.rows) := by
        rw [holds.rows]
        omega
      simp [Tables.row?, Tables.extent?, search, this]
  · intro table i inside
    rcases found table with ⟨-, no⟩ | ⟨e, search, holds, rfl⟩
    · simp [count, no] at inside
    · refine ⟨_, ?_, holds.shows fits inside⟩
      have counted : 0 < i + 1 ∧ i + 1 ≤ e.rows := by
        rw [holds.rows]
        omega
      simp only [Tables.row?, Tables.extent?, search, Option.bind_eq_bind, Option.bind_some]
      exact if_pos counted

/-- The stream is accepted, whatever follows it. -/
theorem read_octets (fits : s.Fits) (f : HeadFiller) (behind : List UInt8) :
    ∃ t, Tables.read (s.octets f ++ behind).toArray = .ok t ∧ t.Gives s := by
  let start := (s.headOctets f).length
  let d : Octets := (s.octets f ++ behind).toArray
  have head : StreamHead.read.run (.start d) = .ok s.head ((Cursor.start d).moved start) := by
    apply StreamHead.reads_head fits f _ (s.present.flatMap s.tableOctets ++ behind)
    simpa [d, octets] using Cursor.sees_start (s.octets f ++ behind)
  have laid : layOut s.head d.size (0 + start) s.head.counts = .ok (s.extents start s.present) := by
    rw [Nat.zero_add]
    apply layOut_head fits
    simp [d, octets, start]
  refine ⟨⟨d, s.extents start s.present⟩, ?_, ?_⟩
  · rw [Tables.read, Reader.value, Tables.reader, EStateM.run_bind, head]
    simp only [EStateM.run_bind, EStateM.run_get, Cursor.data_moved, Cursor.position_moved,
      Cursor.start, laid]
    rfl
  · have ahead : d.toList.drop start = s.present.flatMap s.tableOctets ++ behind := by
      simp [d, start, octets]
    exact gives_extents fits ahead

/-- A stream gives back what it was written from, whatever follows it: the row counts, every cell
of every row, no row besides these, and all the rows of a table in their order. -/
theorem read_stream (fits : s.Fits) (f : HeadFiller) (behind : List UInt8) :
    ∃ t, Tables.read (s.octets f ++ behind).toArray = .ok t ∧ ∀ table,
      t.rowCount table = s.count table ∧
      (∀ number, number = 0 ∨ s.count table < number → t.row? table number = none) ∧
      (∀ i (inside : i < (s.rows table).length),
        ∃ row, t.row? table (i + 1) = some row ∧
          ∀ column (inRow : column < (s.rows table)[i].length),
            (row.get column).toNat = (s.rows table)[i][column]) ∧
      (t.rows table).map Prod.fst = List.range' 1 (s.count table) ∧
      ∀ numbered ∈ t.rows table, t.row? table numbered.1 = some numbered.2 := by
  obtain ⟨t, accepted, gives⟩ := read_octets fits f behind
  refine ⟨t, accepted, fun table => ?_⟩
  refine ⟨gives.rowCount table, gives.noRow table, gives.row table, ?_, ?_⟩
  · exact (gives.rows table).1
  · intro numbered listed
    exact Tables.row?_of_mem_rows listed

/-- Strings and blobs are indexed widely, and there is an extra field in the head. There are just so
many names of modules that references to what has attributes are wide too, and those to methods and
scopes are not. -/
def attributed : TableSet where
  heapFlags := 0x45
  rows?
    | .typeRef => some [[0x13, 0x10022, 0x30022]]
    | .methodDef => some [[0x2050, 0, 0x2096, 0x10001, 0x20001, 1]]
    | .param => some []
    | .customAttribute => some [[0x20, 0x0a, 0], [0x1000c, 0xfffb, 0x20005]]
    | .moduleRef => some (List.replicate 0x800 [0x10044])
    | _ => none

def plainFiller : HeadFiller := ⟨0, 2, 0, 1, 0, 0xffffffff⟩

theorem read_stream_attributed :
    attributed.Fits ∧
    attributed.widths .customAttribute = [4, 2, 4] ∧ attributed.widths .typeRef = [2, 4, 4] ∧
    ∃ t, Tables.read (attributed.octets plainFiller ++ [0xff]).toArray = .ok t ∧
      t.rowCount .moduleRef = 0x800 ∧ t.row? .moduleRef 0x801 = none ∧ t.row? .param 1 = none ∧
      ∃ row, t.row? .customAttribute 2 = some row ∧
        (row.get 0).toNat = 0x1000c ∧ (row.get 1).toNat = 0xfffb ∧ (row.get 2).toNat = 0x20005 := by
  have fits : attributed.Fits := by
    constructor
    · intro t
      cases t <;> decide +kernel
    · intro t
      cases t <;> decide +kernel
  obtain ⟨t, accepted, gives⟩ := read_stream fits plainFiller [0xff]
  obtain ⟨names, noName, -⟩ := gives .moduleRef
  obtain ⟨-, noParam, -⟩ := gives .param
  obtain ⟨-, -, attributes, -⟩ := gives .customAttribute
  obtain ⟨row, second, cells⟩ := attributes 1 (by decide)
  refine ⟨fits, by decide +kernel, by decide +kernel, t, accepted, ?_, ?_, ?_, row, second, ?_⟩
  · rw [names]
    decide +kernel
  · exact noName 0x801 (.inr (by decide +kernel))
  · exact noParam 1 (.inr (by decide))
  · exact ⟨cells 0 (by decide), cells 1 (by decide), cells 2 (by decide)⟩

end TableSet

end WinFloor.Metadata
