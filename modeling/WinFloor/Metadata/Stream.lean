import WinFloor.Metadata.Reader
import WinFloor.Metadata.Table

/-!
The table stream. Its head says which tables there are and how many rows each has; the rows follow,
table after table. How wide a column is depends on the size of what it refers to.
-/
namespace WinFloor.Metadata

/-- The head of a table stream. -/
structure StreamHead where
  /-- Which heaps need wide indexes, and whether a field of no use follows the row counts. -/
  heapFlags : Nat
  /-- The tables there are, by number and in order, with their row counts. -/
  counts : List (Nat × Nat)
  deriving DecidableEq, Repr

namespace StreamHead

/-- Reads the row counts of the tables numbered `ids`. -/
def readCounts : (ids : List Nat) → (done : List (Nat × Nat)) → Reader (List (Nat × Nat))
  | [], done => pure done.reverse
  | id :: ids, done => do
    let rows ← Reader.dword
    readCounts ids ((id, rows) :: done)

/-- The numbers of the tables that a mask has. -/
def present (mask : Nat) : List Nat :=
  (List.range 64).filter mask.testBit

def extraBit : Nat := 6

def read : Reader StreamHead := do
  match (Reader.skip 6).run (← get) with
  | .ok _ c => set c
  | .error _ _ => throw (.metadata .tableHeaderTruncated)
  let heapFlags ← Reader.octet
  let _reserved ← Reader.octet
  let low ← Reader.dword
  let high ← Reader.dword
  Reader.skip 8
  let counts ← readCounts (present (low + high <<< 32)) []
  if heapFlags.testBit extraBit then Reader.skip 4
  return { heapFlags, counts }

def rows (h : StreamHead) (t : Table) : Nat :=
  (h.counts.lookup t.id).getD 0

/-- Two octets as long as they can number all that may be referred to. -/
def narrowOrWide (narrow : Bool) : Nat := if narrow then 2 else 4

def heapWidth (h : StreamHead) (bit : Nat) : Nat :=
  narrowOrWide !(h.heapFlags.testBit bit)

def rowWidth (h : StreamHead) (t : Table) : Nat :=
  narrowOrWide (h.rows t < UInt16.size)

/-- The most rows that a table has to which the reference can point. -/
def mostRows (h : StreamHead) (k : CodedIndex) : Nat :=
  ((k.tables.filterMap fun t => t).map h.rows).foldl max 0

def codedWidth (h : StreamHead) (k : CodedIndex) : Nat :=
  narrowOrWide (h.mostRows k < 1 <<< (16 - k.tagBits))

def columnWidth (h : StreamHead) : Column → Nat
  | .word => 2
  | .dword => 4
  | .string => h.heapWidth 0
  | .guid => h.heapWidth 1
  | .blob => h.heapWidth 2
  | .row t => h.rowWidth t
  | .coded k => h.codedWidth k

def widths (h : StreamHead) (t : Table) : List Nat :=
  t.columns.map h.columnWidth

end StreamHead

/-- A column in its row. -/
structure Cell where
  offset : Nat
  width : Nat
  deriving DecidableEq, Repr

/-- Cells of the given widths one after the other. -/
def cells (offset : Nat) : (widths : List Nat) → List Cell
  | [] => []
  | width :: widths => ⟨offset, width⟩ :: cells (offset + width) widths

/-- Where a table stands in the stream. -/
structure Extent where
  table : Table
  start : Nat
  rows : Nat
  widths : List Nat
  deriving DecidableEq, Repr

namespace Extent

def rowSize (e : Extent) : Nat := e.widths.foldl (· + ·) 0

def stop (e : Extent) : Nat := e.start + e.rowSize * e.rows

end Extent

/-- Widths add up from any start. -/
theorem foldl_sum (ns : List Nat) (start : Nat) :
    ns.foldl (· + ·) start = start + ns.foldl (· + ·) 0 := by
  have split : ns.foldl (· + ·) (start + 0) = start + ns.foldl (· + ·) 0 := List.foldl_assoc
  rwa [Nat.add_zero] at split

/-- The extents of tables with the given numbers and row counts, in a stream of `size` octets from
`start` on. -/
def layOut (h : StreamHead) (size : Nat) : (start : Nat) → (counts : List (Nat × Nat)) →
    Except Fault (List Extent)
  | _, [] => .ok []
  | start, (id, rows) :: counts =>
    match Table.ofId? id with
    | none => .error (.metadata (.unsupportedTable id))
    | some table =>
      let extent := { table, start, rows, widths := h.widths table : Extent }
      if extent.stop ≤ size then (extent :: ·) <$> layOut h size extent.stop counts
      else .error (.metadata (.tableTruncated id))

/-- A row, with its cells. -/
structure Row where
  data : Octets
  start : Nat
  cells : List Cell

/-- The value of a column; zero past the last one. -/
def Row.get (r : Row) (column : Nat) : UInt32 :=
  match r.cells[column]? with
  | some cell =>
    let first := r.start + cell.offset
    UInt32.ofNat (littleEndian (r.data.extract first (first + cell.width)).toList)
  | none => 0

/-- The tables of a stream. -/
structure Tables where
  data : Octets
  extents : List Extent

namespace Tables

def reader : Reader Tables := do
  let head ← StreamHead.read
  let c ← get
  let extents ← MonadExcept.ofExcept (layOut head c.data.size c.position head.counts)
  return { data := c.data, extents }

def read (d : Octets) : Except Fault Tables :=
  reader.value (.start d)

def extent? (t : Tables) (table : Table) : Option Extent :=
  t.extents.find? (·.table = table)

def rowCount (t : Tables) (table : Table) : Nat :=
  ((t.extent? table).map Extent.rows).getD 0

/-- A row by its number, which counts from one. -/
def row? (t : Tables) (table : Table) (number : Nat) : Option Row := do
  let e ← t.extent? table
  if 0 < number ∧ number ≤ e.rows then
    some ⟨t.data, e.start + (number - 1) * e.rowSize, cells 0 e.widths⟩
  else none

/-- The rows of a table in order, with their numbers. -/
def rows (t : Tables) (table : Table) : List (Nat × Row) :=
  (List.range' 1 (t.rowCount table)).filterMap fun n => (t.row? table n).map (n, ·)

/-- What stands at a place of a list that a table of references may rearrange. Without such a table
the place is the answer, and a place it does not have reads as zero. -/
def indirect (t : Tables) (references : Table) (place : Nat) : Nat :=
  if t.rowCount references = 0 then place
  else ((t.row? references place).map fun r => (r.get 0).toNat).getD 0

theorem indirect_of_no_rows {t : Tables} {references : Table} (none : t.rowCount references = 0)
    (place : Nat) : t.indirect references place = place :=
  if_pos none

end Tables

end WinFloor.Metadata
