import Mathlib.Data.List.Forall2
import WinFloor.Metadata.Stream
import WinFloor.Proofs.Guarded.Reading

/-!
Reading a table stream and its rows, with every operation guarded. Tables that were laid out lie in
the stream, so a row is a slice of it (`row?_eq`), its cells lie in the row (`get_eq`), and no table
has more rows than half the octets of the stream (`rowCount_lt`).
-/
namespace WinFloor.Guarded

open Metadata

/-! ## The head -/

def counts : (ids : List Nat) → (done : List (Nat × Nat)) → Reading (List (Nat × Nat))
  | [], done => return done.reverse
  | id :: ids, done => do
    let rows ← numberNext 4
    counts ids ((id, rows) :: done)

def streamHead : Reading StreamHead := do
  match (skip 6).run (← get) with
  | .ok _ c => set c
  | .error .outOfRange _ => throw .outOfRange
  | .error (.fault _) _ => throw (.fault (.metadata .tableHeaderTruncated))
  let heapFlags ← numberNext 1
  let _reserved ← numberNext 1
  let low ← numberNext 4
  let high ← numberNext 4
  skip 8
  let counts ← counts (StreamHead.present (low + high <<< 32)) []
  if heapFlags.testBit StreamHead.extraBit then skip 4
  return { heapFlags, counts }

/-- The row counts stand in a list of 64 places. -/
def rowsOf (h : StreamHead) (t : Table) : Run Nat :=
  if t.id < 64 then return h.rows t else throw .outOfRange

def columnWidth (h : StreamHead) : Column → Run Nat
  | .word => return 2
  | .dword => return 4
  | .string => return h.heapWidth 0
  | .guid => return h.heapWidth 1
  | .blob => return h.heapWidth 2
  | .row t => return StreamHead.narrowOrWide ((← rowsOf h t) < UInt16.size)
  | .coded k => do
    let rows ← (k.tables.filterMap fun t => t).mapM (rowsOf h)
    let bits ← difference 16 k.tagBits
    return StreamHead.narrowOrWide (rows.foldl max 0 < 1 <<< bits)

/-- The extents of tables. That a product or sum leaves a word only means that the table does not
fit. -/
def layOut (h : StreamHead) (size : Nat) : (start : Nat) → (counts : List (Nat × Nat)) →
    Run (List Extent)
  | _, [] => return []
  | start, (id, rows) :: counts =>
    match Table.ofId? id with
    | none => throw (.fault (.metadata (.unsupportedTable id)))
    | some table => do
      let widths ← table.columns.mapM (columnWidth h)
      let rowSize ← widths.foldlM (sum wordBound) 0
      let stop := start + rowSize * rows
      if rowSize * rows < wordBound ∧ stop < wordBound ∧ stop ≤ size then
        ({ table, start, rows, widths } :: ·) <$> layOut h size stop counts
      else throw (.fault (.metadata (.tableTruncated id)))

def tablesReading : Reading Tables := do
  let head ← streamHead
  let c ← get
  let extents ← of (layOut head c.data.size c.position head.counts)
  return { data := c.data, extents }

/-! ## Rows -/

/-- The octets of a row, and where its cells are among them. -/
structure SlicedRow where
  octets : Octets
  cells : List Cell

def get (r : SlicedRow) (column : Nat) : Run UInt32 :=
  match r.cells[column]? with
  | none => return 0
  | some cell => do
    let taken ← (List.range cell.width).mapM fun i => do
      octetAt r.octets (← sum wordBound cell.offset i)
    return UInt32.ofNat (littleEndian taken)

def row? (t : Tables) (table : Table) (number : Nat) : Run (Option SlicedRow) :=
  match t.extent? table with
  | none => return none
  | some e =>
    if 0 < number ∧ number ≤ e.rows then do
      let before ← product wordBound (← difference number 1) e.rowSize
      let first ← sum wordBound e.start before
      let stop ← sum wordBound first e.rowSize
      return some ⟨← slice t.data first stop, cells 0 e.widths⟩
    else return none

def rows (t : Tables) (table : Table) : Run (List SlicedRow) :=
  (List.range' 1 (t.rowCount table)).filterMapM (row? t table)

def indirect (t : Tables) (references : Table) (place : Nat) : Run Nat :=
  if t.rowCount references = 0 then return place
  else do
    match ← row? t references place with
    | some r => return (← get r 0).toNat
    | none => return 0

/-! ## Following -/

variable {d : Octets}

theorem follows_counts (ids : List Nat) (done : List (Nat × Nat)) :
    Follows d (counts ids done) (StreamHead.readCounts ids done) fun _ => True := by
  induction ids generalizing done with
  | nil => exact .pure trivial
  | cons id ids ih =>
    apply Follows.dword.bind
    intro rows _
    exact ih _

theorem follows_streamHead : Follows d streamHead StreamHead.read fun _ => True := by
  apply Follows.get_bind
  intro c ready
  have skipped := Follows.skip 6 c ready
  rw [FollowsAt] at skipped
  cases run : (Reader.skip 6).run c with
  | error f moved =>
    simp only [run] at skipped
    simp only [skipped.1]
    exact ⟨rfl, ready⟩
  | ok _ moved =>
    simp only [run] at skipped
    simp only [skipped.1]
    refine Follows.set_bind ?_ skipped.2.1
    apply Follows.octet.bind
    intro heapFlags _
    apply Follows.octet.bind
    intro _ _
    apply Follows.dword.bind
    intro low _
    apply Follows.dword.bind
    intro high _
    apply (Follows.skip 8).bind
    intro _ _
    apply (follows_counts _ []).bind
    intro counts _
    exact (Follows.skip 4).first (.pure trivial)

theorem columnWidth_eq (h : StreamHead) (c : Column) :
    columnWidth h c = .ok (h.columnWidth c) := by
  have listed (t : Table) : rowsOf h t = .ok (h.rows t) := by
    have few : Table.all.length ≤ 64 := by decide
    exact if_pos (Nat.lt_of_lt_of_le t.id_lt few)
  cases c with
  | word | dword | string | guid | blob => rfl
  | row t =>
    rw [columnWidth, listed, ok_bind]
    rfl
  | coded k =>
    have bits : k.tagBits ≤ 16 := by cases k <;> decide
    rw [columnWidth, mapM_eq fun t _ => listed t, ok_bind, difference_eq bits, ok_bind]
    rfl

theorem columnWidth_le (h : StreamHead) (c : Column) :
    2 ≤ h.columnWidth c ∧ h.columnWidth c ≤ 4 := by
  have either (narrow : Bool) :
      2 ≤ StreamHead.narrowOrWide narrow ∧ StreamHead.narrowOrWide narrow ≤ 4 := by
    cases narrow <;> decide
  cases c with
  | word | dword => simp [StreamHead.columnWidth]
  | string | guid | blob | row | coded => exact either _

theorem foldlM_sum (ns : List Nat) (start : Nat) (fits : ns.foldl (· + ·) start < wordBound) :
    ns.foldlM (sum wordBound) start = .ok (ns.foldl (· + ·) start) := by
  induction ns generalizing start with
  | nil => rfl
  | cons n ns ih =>
    rw [List.foldl_cons] at fits ⊢
    have first : start + n < wordBound := by
      rw [foldl_sum] at fits
      omega
    rw [List.foldlM_cons, sum_eq first, ok_bind, ih _ fits]

theorem foldl_sum_bounds {ns : List Nat} (h : ∀ n ∈ ns, 2 ≤ n ∧ n ≤ 4) :
    2 * ns.length ≤ ns.foldl (· + ·) 0 ∧ ns.foldl (· + ·) 0 ≤ 4 * ns.length := by
  induction ns with
  | nil => simp
  | cons n ns ih =>
    have first := h n List.mem_cons_self
    have rest := ih fun m listed => h m (List.mem_cons_of_mem _ listed)
    rw [List.foldl_cons, foldl_sum, List.length_cons]
    omega

theorem rowSize_bounds (h : StreamHead) (t : Table) :
    2 ≤ (h.widths t).foldl (· + ·) 0 ∧ (h.widths t).foldl (· + ·) 0 ≤ 36 := by
  have each : ∀ width ∈ h.widths t, 2 ≤ width ∧ width ≤ 4 := by
    intro width listed
    obtain ⟨c, -, rfl⟩ := List.mem_map.mp listed
    exact columnWidth_le h c
  have few : 1 ≤ t.columns.length ∧ t.columns.length ≤ 9 := by cases t <;> decide
  have bounds := foldl_sum_bounds each
  rw [StreamHead.widths, List.length_map] at bounds
  rw [StreamHead.widths]
  omega

theorem sound_layOut (h : StreamHead) {size : Nat} (small : size < memoryBound) (start : Nat)
    (counts : List (Nat × Nat)) :
    Sound (layOut h size start counts) (Metadata.layOut h size start counts) := by
  rw [memoryBound] at small
  induction counts generalizing start with
  | nil => exact .ok []
  | cons count counts ih =>
    obtain ⟨id, rows⟩ := count
    rw [layOut, Metadata.layOut]
    cases Table.ofId? id with
    | none => exact .error _
    | some table =>
      have widths : table.columns.mapM (columnWidth h) = .ok (h.widths table) :=
        mapM_eq fun c _ => columnWidth_eq h c
      have bounds := rowSize_bounds h table
      have rowSize := foldlM_sum (h.widths table) 0 (by rw [wordBound]; omega)
      simp only [widths, rowSize, ok_bind]
      by_cases fits : (Extent.mk table start rows (h.widths table)).stop ≤ size
      · have inside : start + (h.widths table).foldl (· + ·) 0 * rows ≤ size := fits
        rw [if_pos fits, if_pos ⟨by rw [wordBound]; omega, by rw [wordBound]; omega, inside⟩]
        exact (ih _).map _
      · have outside : ¬ start + (h.widths table).foldl (· + ·) 0 * rows ≤ size := fits
        rw [if_neg fits, if_neg fun all => outside all.2.2]
        exact .error _

/-- Tables that lie in their stream, which a root has named. -/
structure Laid (t : Tables) : Prop where
  narrow : t.data.size < fieldBound
  inside : ∀ e ∈ t.extents, e.stop ≤ t.data.size ∧ 2 ≤ e.rowSize

theorem laid_layOut {h : StreamHead} {size start : Nat} {counts : List (Nat × Nat)}
    {extents : List Extent} (read : Metadata.layOut h size start counts = .ok extents) :
    ∀ e ∈ extents, e.stop ≤ size ∧ 2 ≤ e.rowSize := by
  induction counts generalizing start extents with
  | nil =>
    cases read
    simp
  | cons count counts ih =>
    obtain ⟨id, rows⟩ := count
    rw [Metadata.layOut] at read
    cases named : Table.ofId? id with
    | none =>
      rw [named] at read
      cases read
    | some table =>
      simp only [named] at read
      split at read
      next fits =>
        cases later : Metadata.layOut h size _ counts with
        | error f =>
          rw [later] at read
          cases read
        | ok rest =>
          rw [later] at read
          cases read
          intro e listed
          rcases List.mem_cons.mp listed with rfl | member
          · exact ⟨fits, (rowSize_bounds h table).1⟩
          · exact ih later e member
      next => cases read

theorem follows_tables :
    Follows d tablesReading Tables.reader fun t =>
      t.data = d ∧ ∀ e ∈ t.extents, e.stop ≤ t.data.size ∧ 2 ≤ e.rowSize := by
  apply follows_streamHead.bind
  intro head _
  apply Follows.get_bind
  intro c ready
  rw [sound_layOut head ready.small]
  cases laid : Metadata.layOut head c.data.size c.position head.counts with
  | error f => exact ⟨rfl, ready⟩
  | ok extents => exact ⟨rfl, ready, ready.same, laid_layOut laid⟩

/-! ## Rows are slices of the stream -/

theorem cells_inside {widths : List Nat} {first column : Nat} {cell : Cell}
    (found : (cells first widths)[column]? = some cell) :
    cell.offset + cell.width ≤ first + widths.foldl (· + ·) 0 := by
  induction widths generalizing first column with
  | nil => cases found
  | cons width widths ih =>
    rw [List.foldl_cons, foldl_sum]
    cases column with
    | zero =>
      cases found
      simp only
      omega
    | succ column =>
      have later : cell.offset + cell.width ≤
          first + width + widths.foldl (· + ·) 0 := ih found
      omega

/-- The octets of a row give the cells that the row has in its stream. -/
def Slices (s : SlicedRow) (r : Row) : Prop := ∀ column, get s column = .ok (r.get column)

theorem get_eq {d : Octets} {first : Nat} {widths : List Nat} (small : d.size < memoryBound)
    (inside : first + widths.foldl (· + ·) 0 ≤ d.size) :
    Slices ⟨d.extract first (first + widths.foldl (· + ·) 0), cells 0 widths⟩
      ⟨d, first, cells 0 widths⟩ := by
  intro column
  rw [get, Row.get]
  cases found : (cells 0 widths)[column]? with
  | none => rfl
  | some cell =>
    have within := cells_inside found
    rw [Nat.zero_add] at within
    have size : (d.extract first (first + widths.foldl (· + ·) 0)).size =
        widths.foldl (· + ·) 0 := by
      rw [Array.size_extract]
      omega
    have taken := octetsFrom_eq (size ▸ within) (by omega)
    have same : (d.extract first (first + widths.foldl (· + ·) 0)).extract cell.offset
        (cell.offset + cell.width) =
          d.extract (first + cell.offset) (first + cell.offset + cell.width) := by
      rw [Array.extract_extract]
      congr 1
      omega
    simp only [taken, same, ok_bind]
    rfl

/-- A row of tables that lie in the stream is a slice of it. -/
theorem row?_eq_of_inside {t : Tables} (small : t.data.size < memoryBound)
    (inside : ∀ e ∈ t.extents, e.stop ≤ t.data.size) (table : Table) (number : Nat) :
    (row? t table number = .ok none ∧ t.row? table number = none) ∨
      ∃ s r, row? t table number = .ok (some s) ∧ t.row? table number = some r ∧ Slices s r := by
  rw [row?, Tables.row?]
  cases found : t.extent? table with
  | none => exact .inl ⟨rfl, rfl⟩
  | some e =>
    have inside := inside e (List.mem_of_find?_eq_some found)
    simp only [Option.bind_eq_bind, Option.bind_some]
    by_cases counted : 0 < number ∧ number ≤ e.rows
    · right
      have last : (number - 1) * e.rowSize + e.rowSize ≤ e.rowSize * e.rows := by
        rw [← Nat.succ_mul, Nat.mul_comm]
        exact Nat.mul_le_mul_left _ (by omega)
      rw [Extent.stop] at inside
      have fits : e.start + (number - 1) * e.rowSize + e.rowSize ≤ t.data.size := by omega
      have word : t.data.size < wordBound := by
        rw [memoryBound] at small
        rw [wordBound]
        omega
      refine ⟨⟨_, _⟩, _, ?_, if_pos counted, get_eq small fits⟩
      have first : 1 ≤ number := counted.1
      rw [if_pos counted, difference_eq first, ok_bind, product_eq (by omega), ok_bind,
        sum_eq (by omega), ok_bind, sum_eq (by omega), ok_bind,
        slice_eq (Nat.le_add_right ..) fits]
      rfl
    · exact .inl ⟨if_neg counted, if_neg counted⟩

namespace Laid

variable {t : Tables} (laid : Laid t)
include laid

theorem small : t.data.size < memoryBound := by
  have := laid.narrow
  rw [fieldBound] at this
  rw [memoryBound]
  omega

theorem extent {table : Table} {e : Extent} (found : t.extent? table = some e) :
    e.stop ≤ t.data.size ∧ 2 ≤ e.rowSize :=
  laid.inside e (List.mem_of_find?_eq_some found)

/-- No table has so many rows that their number and one more would not fit a field. -/
theorem rowCount_lt (table : Table) : 2 * t.rowCount table < fieldBound := by
  have narrow := laid.narrow
  rw [Tables.rowCount]
  cases found : t.extent? table with
  | none => decide
  | some e =>
    obtain ⟨inside, wide⟩ := laid.extent found
    have rows : 2 * e.rows ≤ e.rowSize * e.rows := Nat.mul_le_mul_right _ wide
    rw [Extent.stop] at inside
    simp only [Option.map_some, Option.getD_some]
    omega

theorem row?_eq (table : Table) (number : Nat) :
    (row? t table number = .ok none ∧ t.row? table number = none) ∨
      ∃ s r, row? t table number = .ok (some s) ∧ t.row? table number = some r ∧ Slices s r :=
  row?_eq_of_inside laid.small (fun e listed => (laid.inside e listed).1) table number

theorem rows_eq (table : Table) :
    ∃ ss, rows t table = .ok ss ∧
      List.Forall₂ (fun s numbered => Slices s numbered.2) ss (t.rows table) := by
  have listed (numbers : List Nat) :
      ∃ ss, numbers.filterMapM (row? t table) = .ok ss ∧
        List.Forall₂ (fun s numbered => Slices s numbered.2) ss
          (numbers.filterMap fun n => (t.row? table n).map (n, ·)) := by
    induction numbers with
    | nil => exact ⟨[], rfl, .nil⟩
    | cons n numbers ih =>
      obtain ⟨ss, rest, slices⟩ := ih
      rw [List.filterMapM_cons]
      rcases laid.row?_eq table n with ⟨guarded, plain⟩ | ⟨s, r, guarded, plain, same⟩
      · refine ⟨ss, ?_, ?_⟩
        · rw [guarded, ok_bind]
          exact rest
        · rw [List.filterMap_cons, plain]
          exact slices
      · refine ⟨s :: ss, ?_, ?_⟩
        · rw [guarded, ok_bind, rest]
          rfl
        · rw [List.filterMap_cons, plain]
          exact .cons same slices
  exact listed _

theorem indirect_eq (references : Table) (place : Nat) :
    indirect t references place = .ok (t.indirect references place) := by
  rw [indirect, Tables.indirect]
  by_cases direct : t.rowCount references = 0
  · rw [if_pos direct, if_pos direct]
    rfl
  · rw [if_neg direct, if_neg direct]
    rcases laid.row?_eq references place with ⟨guarded, plain⟩ | ⟨s, r, guarded, plain, same⟩
    · rw [guarded, plain]
      rfl
    · simp only [guarded, plain, ok_bind, same 0]
      rfl

end Laid

theorem mapM_rows {f : SlicedRow → Run β} {g : Nat × Row → β} {ss : List SlicedRow}
    {numbered : List (Nat × Row)} (slices : List.Forall₂ (fun s n => Slices s n.2) ss numbered)
    (each : ∀ s n, Slices s n.2 → f s = .ok (g n)) : ss.mapM f = .ok (numbered.map g) := by
  induction slices with
  | nil => rfl
  | cons same _ ih =>
    rw [List.mapM_cons, each _ _ same, ok_bind, ih]
    rfl

theorem foldlM_rows {f : β → SlicedRow → Run β} {g : β → Nat × Row → β} {ss : List SlicedRow}
    {numbered : List (Nat × Row)} (slices : List.Forall₂ (fun s n => Slices s n.2) ss numbered)
    (each : ∀ b s n, Slices s n.2 → f b s = .ok (g b n)) (start : β) :
    ss.foldlM f start = .ok (numbered.foldl g start) := by
  induction slices generalizing start with
  | nil => rfl
  | cons same _ ih => rw [List.foldlM_cons, each _ _ _ same, ok_bind, ih, List.foldl_cons]

end WinFloor.Guarded
