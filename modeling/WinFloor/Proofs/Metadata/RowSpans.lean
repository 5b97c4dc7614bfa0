import Mathlib.Data.List.Pairwise
import WinFloor.Proofs.Guarded.Tables
import WinFloor.Proofs.Image.Agreement
import WinFloor.Proofs.Metadata.MethodLists
import WinFloor.Proofs.Metadata.StatedHead

/-!
Where rows stand. The tables of a stream adjoin behind its head, in the order of their numbers and
up to no further than the stream goes (`stands_of_read`). So a row lies in the stream, its cells lie
in the row, and no two rows have an octet in common (`rows_disjoint`).
-/
namespace WinFloor.Metadata

/-- The extents adjoin, from `start` on. -/
def Adjoin : (start : Nat) → List Extent → Prop
  | _, [] => True
  | start, e :: extents => e.start = start ∧ Adjoin e.stop extents

/-- The tables stand in the stream that they were read from: those that its head has, with their row
counts, in the order of their numbers, one behind the other and all behind the head. -/
structure Tables.Stands (t : Tables) (d : Octets) : Prop where
  same : t.data = d
  listed : (t.extents.map fun e => (e.table.id, e.rows)) = (StreamHead.stated d).counts
  ordered : t.extents.Pairwise fun e f => e.table.id < f.table.id
  adjoin : Adjoin (StreamHead.size d) t.extents
  inside : ∀ e ∈ t.extents, e.stop ≤ d.size

namespace Row

def size (r : Row) : Nat := (r.cells.map Cell.width).foldl (· + ·) 0

def span (r : Row) : WinFloor.Span := ⟨r.start, r.size⟩

/-- The row lies in the stream, and its cells lie in the row. -/
structure Stands (r : Row) (d : Octets) : Prop where
  same : r.data = d
  inside : r.start + r.size ≤ d.size
  cells : ∀ cell ∈ r.cells, cell.offset + cell.width ≤ r.size

end Row

/-! ## Tables -/

theorem Table.id_of_ofId? {id : Nat} {t : Table} (named : ofId? id = some t) : t.id = id := by
  have distinct : all.Nodup := by decide
  obtain ⟨inside, rfl⟩ := List.getElem?_eq_some_iff.mp named
  exact distinct.idxOf_getElem id inside

theorem adjoin_layOut {h : StreamHead} {size start : Nat} {counts : List (Nat × Nat)}
    {extents : List Extent} (laid : layOut h size start counts = .ok extents) :
    Adjoin start extents ∧ (extents.map fun e => (e.table.id, e.rows)) = counts := by
  induction counts generalizing start extents with
  | nil =>
    cases laid
    exact ⟨trivial, rfl⟩
  | cons count counts ih =>
    obtain ⟨id, rows⟩ := count
    rw [layOut] at laid
    cases named : Table.ofId? id with
    | none =>
      rw [named] at laid
      cases laid
    | some table =>
      simp only [named] at laid
      split at laid
      next =>
        obtain ⟨rest, later, rfl⟩ := exists_of_map_eq_ok laid
        obtain ⟨adjoin, same⟩ := ih later
        refine ⟨⟨rfl, adjoin⟩, ?_⟩
        rw [List.map_cons, same, Table.id_of_ofId? named]
      next => cases laid

theorem Adjoin.le {start : Nat} {extents : List Extent} (adjoin : Adjoin start extents) :
    ∀ e ∈ extents, start ≤ e.start := by
  induction extents generalizing start with
  | nil => exact fun e listed => absurd listed List.not_mem_nil
  | cons first extents ih =>
    obtain ⟨rfl, adjoin⟩ := adjoin
    refine List.forall_mem_cons.mpr ⟨Nat.le_refl _, fun e listed => ?_⟩
    exact Nat.le_trans (Nat.le_add_right ..) (ih adjoin e listed)

theorem Adjoin.pairwise {start : Nat} {extents : List Extent} (adjoin : Adjoin start extents) :
    extents.Pairwise fun e f => e.stop ≤ f.start := by
  induction extents generalizing start with
  | nil => exact .nil
  | cons first extents ih => exact .cons adjoin.2.le (ih adjoin.2)

theorem Tables.stands_of_read {d : Octets} {t : Tables} (read : Tables.read d = .ok t) :
    t.Stands d := by
  obtain ⟨same, laid⟩ := layOut_of_read read
  obtain ⟨adjoin, listed⟩ := adjoin_layOut laid
  refine ⟨same, listed, ?_, adjoin, fun e among => (Guarded.laid_layOut laid e among).1⟩
  have ids : (t.extents.map fun e => e.table.id) = StreamHead.tableIds d := by
    have firsts := congrArg (List.map Prod.fst) listed
    rw [List.map_map] at firsts
    exact firsts.trans (List.ext_getElem (by simp [StreamHead.stated]) (by simp [StreamHead.stated]))
  have ascending : (StreamHead.tableIds d).Pairwise (· < ·) := List.pairwise_lt_range.filter _
  rw [← ids] at ascending
  exact List.pairwise_map.mp ascending

/-! ## Rows -/

theorem map_width_cells (first : Nat) (widths : List Nat) :
    (cells first widths).map Cell.width = widths := by
  induction widths generalizing first with
  | nil => rfl
  | cons width widths ih => exact congrArg (width :: ·) (ih _)

theorem mem_cells {first : Nat} {widths : List Nat} {cell : Cell}
    (listed : cell ∈ cells first widths) :
    cell.offset + cell.width ≤ first + widths.foldl (· + ·) 0 := by
  obtain ⟨column, found⟩ := List.getElem?_of_mem listed
  exact Guarded.cells_inside found

/-- The row of a number, where a table stands. -/
def Extent.row (e : Extent) (d : Octets) (number : Nat) : Row :=
  ⟨d, e.start + (number - 1) * e.rowSize, cells 0 e.widths⟩

namespace Extent

variable (e : Extent) (d : Octets) {number number' : Nat}

theorem size_row (number : Nat) : (e.row d number).size = e.rowSize :=
  congrArg (List.foldl (· + ·) 0) (map_width_cells 0 e.widths)

/-- Rows of lower numbers end where the row starts. -/
theorem stop_row_le (before : number < number') (first : 1 ≤ number) :
    (e.row d number).start + e.rowSize ≤ (e.row d number').start := by
  have rows : number * e.rowSize ≤ (number' - 1) * e.rowSize := Nat.mul_le_mul_right _ (by omega)
  have row : (number - 1) * e.rowSize + e.rowSize = number * e.rowSize := by
    rw [← Nat.succ_mul, Nat.succ_eq_add_one, Nat.sub_add_cancel first]
  simp only [Extent.row]
  omega

theorem row_within (first : 1 ≤ number) (last : number ≤ e.rows) :
    e.start ≤ (e.row d number).start ∧ (e.row d number).start + e.rowSize ≤ e.stop := by
  refine ⟨Nat.le_add_right .., ?_⟩
  have stop : (e.row d (e.rows + 1)).start = e.stop :=
    congrArg (e.start + ·) (Nat.mul_comm e.rows e.rowSize)
  exact stop ▸ e.stop_row_le d (Nat.lt_succ_of_le last) first

end Extent

namespace Tables

variable {d : Octets} {t : Tables} {table table' : Table} {number number' : Nat} {r r' : Row}

theorem exists_extent_of_row? (found : t.row? table number = some r) :
    ∃ e, t.extent? table = some e ∧ (1 ≤ number ∧ number ≤ e.rows) ∧
      r = e.row t.data number := by
  rw [row?] at found
  cases here : t.extent? table with
  | none =>
    rw [here] at found
    cases found
  | some e =>
    rw [here] at found
    simp only [Option.bind_eq_bind, Option.bind_some] at found
    split at found
    next counted =>
      cases found
      exact ⟨e, rfl, counted, rfl⟩
    next => cases found

theorem Stands.row (stands : t.Stands d) (found : t.row? table number = some r) :
    r.Stands d := by
  obtain ⟨e, listed, ⟨first, last⟩, rfl⟩ := exists_extent_of_row? found
  have size := e.size_row t.data number
  refine ⟨stands.same, ?_, fun cell among => ?_⟩
  · rw [size]
    exact Nat.le_trans (e.row_within t.data first last).2 (stands.inside e (List.mem_of_find?_eq_some listed))
  · have inside := mem_cells among
    rw [Nat.zero_add] at inside
    exact size ▸ inside

theorem table_of_extent? {e : Extent} (here : t.extent? table = some e) :
    e ∈ t.extents ∧ e.table = table :=
  ⟨List.mem_of_find?_eq_some here, by simpa using List.find?_some here⟩

/-- Of two tables the one that stands first ends where the other starts, or in front of it. -/
theorem Stands.extents_apart (stands : t.Stands d) {e f : Extent} (listed : e ∈ t.extents)
    (listed' : f ∈ t.extents) (different : e ≠ f) : e.stop ≤ f.start ∨ f.stop ≤ e.start := by
  have apart : t.extents.Pairwise fun e f => e.stop ≤ f.start ∨ f.stop ≤ e.start :=
    stands.adjoin.pairwise.imp fun before => .inl before
  have : Std.Symm fun e f : Extent => e.stop ≤ f.start ∨ f.stop ≤ e.start := ⟨fun _ _ => Or.symm⟩
  exact apart.forall listed listed' different

theorem Stands.rows_apart (stands : t.Stands d) (found : t.row? table number = some r)
    (found' : t.row? table' number' = some r') (different : (table, number) ≠ (table', number')) :
    r.span.Apart r'.span := by
  obtain ⟨e, here, ⟨first, last⟩, rfl⟩ := exists_extent_of_row? found
  obtain ⟨f, here', ⟨first', last'⟩, rfl⟩ := exists_extent_of_row? found'
  simp only [WinFloor.Span.Apart, Row.span, Extent.size_row]
  by_cases same : table = table'
  · -- In one table the row of the lower number ends where the other starts, or in front of it.
    cases same
    cases here.symm.trans here'
    rcases Nat.lt_or_gt_of_ne fun same => different (congrArg (table, ·) same) with before | behind
    · exact .inl (e.stop_row_le t.data before first)
    · exact .inr (e.stop_row_le t.data behind first')
  · -- Rows of two tables keep to the extents of these.
    obtain ⟨listed, rfl⟩ := table_of_extent? here
    obtain ⟨listed', rfl⟩ := table_of_extent? here'
    have within := e.row_within t.data first last
    have within' := f.row_within t.data first' last'
    have other : e ≠ f := fun h => same (congrArg Extent.table h)
    rcases stands.extents_apart listed listed' other with before | behind
    · exact .inl (Nat.le_trans within.2 (Nat.le_trans before within'.1))
    · exact .inr (Nat.le_trans within'.2 (Nat.le_trans behind within.1))

/-- Wherever a table stream is read, its tables stand in it, a row is there for each number up to the
row count, and rows lie in the stream and apart from one another. With every operation checked a row
is sliced from the stream, and the slice is all that its columns are read from. -/
theorem rows_disjoint (read : Tables.read d = .ok t) :
    t.Stands d ∧
      (∀ table number, (t.row? table number).isSome = true ↔
        1 ≤ number ∧ number ≤ t.rowCount table) ∧
      (∀ table number r, t.row? table number = some r → r.Stands d) ∧
      (∀ table number table' number' r r', t.row? table number = some r →
        t.row? table' number' = some r' → (table, number) ≠ (table', number') →
          r.span.Apart r'.span) ∧
      (d.size < Guarded.memoryBound → ∀ table number,
        (Guarded.row? t table number = .ok none ∧ t.row? table number = none) ∨
          ∃ s r, Guarded.row? t table number = .ok (some s) ∧ t.row? table number = some r ∧
            Guarded.Slices s r) := by
  have stands := stands_of_read read
  refine ⟨stands, t.isSome_row?, fun _ _ _ => stands.row, fun _ _ _ _ _ _ => stands.rows_apart,
    fun small => ?_⟩
  obtain ⟨rfl, -, -, -, inside⟩ := stands
  exact Guarded.row?_eq_of_inside small inside

/-- Two names of modules, behind a head with a field of no use. -/
def extraField : Octets :=
  #[0, 0, 0, 0, 2, 0, 0x40, 1, 0, 0, 0, 4, 0, 0, 0, 0, 0, 0, 0, 0, 0, 0, 0, 0, 2, 0, 0, 0,
    0x11, 0x11, 0x11, 0x11, 0x22, 0x22, 0x33, 0x33]

theorem read_extraField :
    Tables.read extraField = .ok ⟨extraField, [⟨.moduleRef, 32, 2, [2]⟩]⟩ := by
  rfl

theorem rows_disjoint_extraField : ∃ t r r', Tables.read extraField = .ok t ∧
    t.row? .moduleRef 1 = some r ∧ t.row? .moduleRef 2 = some r' ∧ t.row? .moduleRef 3 = none ∧
      r.span = ⟨32, 2⟩ ∧ r'.span = ⟨34, 2⟩ ∧ r'.Stands extraField ∧ r.span.Apart r'.span := by
  obtain ⟨-, -, stand, apart, -⟩ := rows_disjoint read_extraField
  exact ⟨_, _, _, read_extraField, rfl, rfl, rfl, rfl, rfl, stand .moduleRef 2 _ rfl,
    apart .moduleRef 1 .moduleRef 2 _ _ rfl rfl (by decide)⟩

/-- With the field the tables do not start where the row counts end. -/
theorem start_extraField : ∃ t, Tables.read extraField = .ok t ∧
    ¬ Adjoin (24 + (StreamHead.tableIds extraField).length * 4) t.extents := by
  refine ⟨_, read_extraField, fun adjoin => ?_⟩
  have start : 32 = 24 + (StreamHead.tableIds extraField).length * 4 := adjoin.1
  exact absurd start (by decide)

end Tables

end WinFloor.Metadata
