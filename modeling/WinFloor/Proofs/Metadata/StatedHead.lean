import WinFloor.Proofs.Image.Overlay
import WinFloor.Proofs.Metadata.ArgumentForm
import WinFloor.Proofs.Metadata.TableSet

/-!
What the head of a table stream says. The tables that there are stand bit for bit in a mask, behind
which each has its row count; the head that is read is the one that stands in the stream, and the
reading ends behind it (`eq_stated_of_run`).
-/
namespace WinFloor.Metadata

theorem toLittleEndian_littleEndian (bs : List UInt8) :
    toLittleEndian bs.length (littleEndian bs) = bs := by
  induction bs with
  | nil => rfl
  | cons b bs ih =>
    have bound := b.toNat_lt
    have low : UInt8.ofNat (b.toNat + 256 * littleEndian bs) = b := by
      apply UInt8.toNat_inj.mp
      rw [UInt8.toNat_ofNat']
      omega
    have rest : (b.toNat + 256 * littleEndian bs) / 256 = littleEndian bs := by omega
    rw [littleEndian, List.length_cons, toLittleEndian, low, rest, ih]

namespace ReadsOnly

theorem number (width : Nat) : ReadsOnly (Reader.number width) fun bs n =>
    bs = toLittleEndian width n ∧ n < 1 <<< (8 * width) := by
  rw [Reader.number, map_eq_pure_bind]
  apply (take width).bind
  rintro bs _ ⟨rfl, rfl⟩
  refine pure ⟨?_, littleEndian_lt bs⟩
  rw [List.append_nil]
  exact (toLittleEndian_littleEndian bs).symm

/-- A reading that is tried before it is taken over, and that else fails with a fault of its own. -/
theorem tried (r : Reader α) (next : Reader β) {attempt : Cursor → Reader β}
    {H : List UInt8 → β → Prop}
    (taken : ∀ c a moved, r.run c = .ok a moved → (attempt c).run c = next.run moved)
    (refused : ∀ c f moved, r.run c = .error f moved → ∀ b after, (attempt c).run c ≠ .ok b after)
    (h : ReadsOnly (r >>= fun _ => next) H) : ReadsOnly (get >>= attempt) H := by
  intro c moved all b sees run
  rw [EStateM.run_bind, EStateM.run_get] at run
  refine h c moved all b sees ?_
  rw [EStateM.run_bind]
  cases first : r.run c with
  | ok a between => exact (taken c a between first).symm.trans run
  | error f between => exact absurd run (refused c f between first b moved)

end ReadsOnly

namespace StreamHead

/-! ## Where the head stands -/

/-- Bit for bit the tables that there are. -/
def mask (d : Octets) : Nat := d.numberAt 8 8

/-- The numbers of the tables that there are. -/
def tableIds (d : Octets) : List Nat := present (mask d)

/-- The head that stands in the stream: the row counts stand behind 24 octets. -/
def stated (d : Octets) : StreamHead where
  heapFlags := d.numberAt 6 1
  counts := (tableIds d).mapIdx fun i id => (id, d.numberAt (24 + i * 4) 4)

/-- How many octets the head has: a bit of the flags says that a field of no use is behind the row
counts. -/
def size (d : Octets) : Nat :=
  24 + (tableIds d).length * 4 + if (d.numberAt 6 1).testBit extraBit then 4 else 0

theorem readsOnly_counts (ids : List Nat) (done : List (Nat × Nat)) :
    ReadsOnly (readCounts ids done) fun bs counts => ∃ rows : List Nat,
      rows.length = ids.length ∧ (∀ n ∈ rows, n < 1 <<< (8 * 4)) ∧
        bs = rows.flatMap (toLittleEndian 4) ∧ counts = done.reverse ++ ids.zip rows := by
  induction ids generalizing done with
  | nil => exact .pure ⟨[], rfl, by simp, rfl, by simp⟩
  | cons id ids ih =>
    apply (ReadsOnly.number 4).bind
    rintro _ n ⟨rfl, small⟩
    refine (ih ((id, n) :: done)).weaken ?_
    rintro _ _ ⟨rows, count, bounds, rfl, rfl⟩
    refine ⟨n :: rows, congrArg (· + 1) count, ?_, rfl, by simp⟩
    exact List.forall_mem_cons.mpr ⟨small, bounds⟩

theorem mask_of_holds {d : Octets} {low high : Nat} (small : low < 1 <<< (8 * 4))
    (small' : high < 1 <<< (8 * 4))
    (held : d.Holds ⟨8, toLittleEndian 4 low ++ toLittleEndian 4 high⟩) :
    mask d = low + high <<< 32 := by
  have halves : toLittleEndian 8 (low + high <<< 32) =
      toLittleEndian 4 low ++ toLittleEndian 4 high := by
    rw [toLittleEndian_add 4 4, ← toLittleEndian_mod 4 (low + _), Nat.shiftRight_eq_div_pow,
      Nat.shiftLeft_eq]
    simp only [Nat.one_shiftLeft] at small ⊢
    congr 2 <;> omega
  refine Octets.numberAt_of_holds (halves.symm ▸ held) ?_
  rw [Nat.shiftLeft_eq]
  omega

/-- Row counts that stand in the stream, each with the table it belongs to. -/
theorem zip_eq_mapIdx {d : Octets} {offset : Nat} {ids rows : List Nat}
    (held : d.Holds ⟨offset, rows.flatMap (toLittleEndian 4)⟩)
    (bounds : ∀ n ∈ rows, n < 1 <<< (8 * 4)) (count : rows.length = ids.length) :
    ids.zip rows = ids.mapIdx fun i id => (id, d.numberAt (offset + i * 4) 4) := by
  refine List.ext_getElem (by simp [count]) fun i inside inside' => ?_
  rw [List.length_mapIdx, ← count] at inside'
  have stands := held.item (length_toLittleEndian 4) inside'
  rw [List.getElem_zip, List.getElem_mapIdx,
    Octets.numberAt_of_holds stands (bounds _ (List.getElem_mem inside'))]

/-- What is read of a head behind its first octets. -/
def readFields : Reader StreamHead := do
  let heapFlags ← Reader.octet
  let _reserved ← Reader.octet
  let low ← Reader.dword
  let high ← Reader.dword
  Reader.skip 8
  let counts ← readCounts (present (low + high <<< 32)) []
  if heapFlags.testBit extraBit then Reader.skip 4
  return { heapFlags, counts }

theorem readsOnly_extra (h : StreamHead) :
    ReadsOnly (do
        if h.heapFlags.testBit extraBit then Reader.skip 4
        return h)
      fun bs h' => h' = h ∧ bs.length = if h.heapFlags.testBit extraBit then 4 else 0 := by
  by_cases flag : h.heapFlags.testBit extraBit = true
  · simp only [flag, ↓reduceIte]
    apply (ReadsOnly.skip 4).bind
    rintro extra _ four
    exact .pure ⟨rfl, by simpa using four⟩
  · simp only [flag]
    exact .pure ⟨rfl, rfl⟩

theorem readsOnly_fields : ReadsOnly readFields fun bs h =>
    ∀ d : Octets, d.Holds ⟨6, bs⟩ → h = stated d ∧ 6 + bs.length = size d := by
  apply (ReadsOnly.number 1).bind
  rintro _ heapFlags ⟨rfl, flagged⟩
  apply (ReadsOnly.number 1).bind
  rintro _ reserved ⟨rfl, -⟩
  apply (ReadsOnly.number 4).bind
  rintro _ low ⟨rfl, small⟩
  apply (ReadsOnly.number 4).bind
  rintro _ high ⟨rfl, small'⟩
  apply (ReadsOnly.skip 8).bind
  rintro sorted _ eight
  apply (readsOnly_counts _ []).bind
  rintro _ _ ⟨rows, count, bounds, rfl, rfl⟩
  -- All the octets that were taken are told apart now; where they stand, each part has its place.
  refine (readsOnly_extra ⟨heapFlags, _⟩).weaken ?_
  rintro extra _ ⟨rfl, length⟩ d held
  obtain ⟨flags, held⟩ := held.append
  obtain ⟨-, held⟩ := held.append
  rw [← List.append_assoc] at held
  obtain ⟨halves, held⟩ := held.append
  obtain ⟨-, held⟩ := held.append
  obtain ⟨counts, -⟩ := held.append
  simp only [length_toLittleEndian, List.length_append, eight, Nat.reduceAdd] at halves counts
  have flags : d.numberAt 6 1 = heapFlags := Octets.numberAt_of_holds flags flagged
  have ids : tableIds d = present (low + high <<< 32) :=
    congrArg present (mask_of_holds small small' halves)
  rw [stated, size, flags, ids]
  constructor
  · rw [zip_eq_mapIdx counts bounds count]
    rfl
  · simp only [List.length_append, length_toLittleEndian, eight, length, List.length_flatMap,
      List.map_const', List.sum_replicate_nat, count]
    omega

/-- The head that is read is the one that stands in any stream which starts with its octets. -/
theorem readsOnly_read : ReadsOnly read fun bs h =>
    ∀ d : Octets, d.Holds ⟨0, bs⟩ → h = stated d ∧ bs.length = size d := by
  refine ReadsOnly.tried (Reader.skip 6) readFields (fun c _ moved run => ?_)
    (fun c f moved run => ?_) ?_
  · simp only [run]
    rfl
  · rintro b after failed
    simp only [run] at failed
    cases failed
  · apply (ReadsOnly.skip 6).bind
    rintro front _ six
    refine readsOnly_fields.weaken fun bs h told d held => ?_
    have behind := held.append.2
    rw [six] at behind
    rw [List.length_append, six]
    exact told d behind

theorem eq_stated_of_run {d : Octets} {h : StreamHead} {moved : Cursor}
    (run : read.run (.start d) = .ok h moved) :
    h = stated d ∧ moved = (Cursor.start d).moved (size d) := by
  obtain ⟨bs, behind, all, same, told⟩ := readsOnly_read _ _ _ _ (Cursor.sees_start d.toList) run
  have held : d.Holds ⟨0, bs⟩ := ⟨behind, all.symm⟩
  obtain ⟨rfl, length⟩ := told d held
  exact ⟨rfl, length ▸ same⟩

end StreamHead

/-- Tables that were read were laid out behind the head. -/
theorem Tables.layOut_of_read {d : Octets} {t : Tables} (read : Tables.read d = .ok t) :
    t.data = d ∧ layOut (StreamHead.stated d) d.size (StreamHead.size d)
      (StreamHead.stated d).counts = .ok t.extents := by
  rw [Tables.read, Reader.value, reader, EStateM.run_bind] at read
  cases head : StreamHead.read.run (.start d) with
  | error f moved =>
    rw [head] at read
    cases read
  | ok h moved =>
    obtain ⟨rfl, rfl⟩ := StreamHead.eq_stated_of_run head
    rw [head] at read
    simp only [EStateM.run_bind, EStateM.run_get, Cursor.data_moved, Cursor.position_moved,
      Cursor.start, Nat.zero_add] at read
    cases laid : layOut (StreamHead.stated d) d.size (StreamHead.size d)
      (StreamHead.stated d).counts with
    | error f =>
      rw [laid] at read
      cases read
    | ok extents =>
      rw [laid] at read
      cases read
      exact ⟨rfl, rfl⟩

end WinFloor.Metadata
