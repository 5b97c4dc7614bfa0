import WinFloor.Metadata.Reader

/-!
Readings that give back what was written. `Reads r bs a` says that `r` takes exactly the octets `bs`
and gives `a`, whatever stands before and behind them, so the reading of a whole is composed of the
readings of its parts.
-/
namespace WinFloor.Metadata

theorem toList_extract_window (d : Octets) (first length : Nat) :
    (d.extract first (first + length)).toList = (d.toList.drop first).take length := by
  simp [List.extract_eq_take_drop]

namespace Cursor

/-- The cursor stands in its data, with the octets `bs` before it. -/
structure Sees (c : Cursor) (bs : List UInt8) : Prop where
  inside : c.origin + c.position ≤ c.data.size
  ahead : c.data.toList.drop (c.origin + c.position) = bs

def moved (c : Cursor) (length : Nat) : Cursor := { c with position := c.position + length }

@[simp] theorem moved_moved (c : Cursor) (m n : Nat) : (c.moved m).moved n = c.moved (m + n) := by
  simp [moved, Nat.add_assoc]

@[simp] theorem data_moved (c : Cursor) (n : Nat) : (c.moved n).data = c.data := rfl
@[simp] theorem origin_moved (c : Cursor) (n : Nat) : (c.moved n).origin = c.origin := rfl
@[simp] theorem position_moved (c : Cursor) (n : Nat) : (c.moved n).position = c.position + n := rfl

theorem sees_start (bs : List UInt8) : (Cursor.start bs.toArray).Sees bs :=
  ⟨by simp [start], by simp [start]⟩

namespace Sees

theorem length_eq {c : Cursor} {bs : List UInt8} (h : c.Sees bs) :
    bs.length = c.data.size - (c.origin + c.position) := by
  rw [← h.ahead]
  simp

theorem remaining_eq {c : Cursor} {bs : List UInt8} (h : c.Sees bs) :
    c.remaining = bs.length := by
  rw [h.length_eq, remaining, size]
  omega

theorem moved {c : Cursor} {bs behind : List UInt8} (h : c.Sees (bs ++ behind)) :
    (c.moved bs.length).Sees behind := by
  have room := h.length_eq
  have inside := h.inside
  rw [List.length_append] at room
  constructor
  · simp only [origin_moved, position_moved, data_moved]
    omega
  · simp only [origin_moved, position_moved, data_moved, ← Nat.add_assoc]
    rw [← List.drop_drop, h.ahead, List.drop_left]

theorem peek? {c : Cursor} {b : UInt8} {behind : List UInt8} (h : c.Sees (b :: behind)) :
    c.peek? = some b := by
  have first : (c.data.toList.drop (c.origin + c.position))[0]? = some b := by
    rw [h.ahead]
    rfl
  simpa [Cursor.peek?] using first

end Sees

end Cursor

/-- The reading takes the octets `bs`, wherever they stand, and gives `a`. -/
def Reads (r : Reader α) (bs : List UInt8) (a : α) : Prop :=
  ∀ (c : Cursor) (behind : List UInt8), c.Sees (bs ++ behind) → r.run c = .ok a (c.moved bs.length)

namespace Reads

theorem pure (a : α) : Reads (Pure.pure a) [] a := by
  intro c behind _
  rfl

theorem bind {r : Reader α} {next : α → Reader β} {as bs : List UInt8} {a : α} {b : β}
    (first : Reads r as a) (second : Reads (next a) bs b) : Reads (r >>= next) (as ++ bs) b := by
  intro c behind h
  rw [List.append_assoc] at h
  rw [EStateM.run_bind, first c _ h]
  simp only
  rw [second _ behind h.moved, Cursor.moved_moved, List.length_append]

theorem bind_pure {r : Reader α} {bs : List UInt8} {a : α} (f : α → β) (h : Reads r bs a) :
    Reads (r >>= fun a => Pure.pure (f a)) bs (f a) := by
  rw [← List.append_nil bs]
  exact h.bind (pure _)

theorem map {r : Reader α} {bs : List UInt8} {a : α} (f : α → β) (h : Reads r bs a) :
    Reads (f <$> r) bs (f a) := by
  rw [map_eq_pure_bind]
  exact h.bind_pure f

/-- A reading that looks at the cursor first. -/
theorem get_bind {next : Cursor → Reader β} {bs : List UInt8} {b : β}
    (h : ∀ (c : Cursor) (behind : List UInt8), c.Sees (bs ++ behind) →
      (next c).run c = .ok b (c.moved bs.length)) :
    Reads (get >>= next) bs b := by
  intro c behind sees
  rw [EStateM.run_bind, EStateM.run_get]
  exact h c behind sees

/-- What follows a reading that was tried from the cursor and whose end is taken over. -/
theorem run_set {next : Reader β} {as bs behind : List UInt8} {b : β} (h : Reads next bs b)
    {c : Cursor} (sees : c.Sees (as ++ (bs ++ behind))) :
    (set (c.moved as.length) >>= fun _ => next).run c = .ok b (c.moved (as ++ bs).length) := by
  rw [EStateM.run_bind, EStateM.run_set]
  simp only
  rw [h _ behind sees.moved, Cursor.moved_moved, List.length_append]

theorem take (bs : List UInt8) : Reads (Reader.take bs.length) bs bs.toArray := by
  intro c behind h
  have room := h.length_eq
  have inside := h.inside
  rw [List.length_append] at room
  have fits : c.position + bs.length ≤ c.size := by
    rw [Cursor.size]
    omega
  have octets : c.data.extract (c.origin + c.position) (c.origin + c.position + bs.length) =
      bs.toArray := by
    apply Array.toList_inj.mp
    rw [toList_extract_window, h.ahead, List.take_left]
  change Reader.take bs.length c = _
  simp only [Reader.take, fits, ↓reduceIte, octets]
  rfl

theorem take_of_length {bs : List UInt8} {length : Nat} (h : bs.length = length) :
    Reads (Reader.take length) bs bs.toArray :=
  h ▸ take bs

theorem skip {bs : List UInt8} {length : Nat} (h : bs.length = length) :
    Reads (Reader.skip length) bs () := by
  exact (take_of_length h).bind_pure fun _ => ()

theorem number {width n : Nat} (h : n < 1 <<< (8 * width)) :
    Reads (Reader.number width) (toLittleEndian width n) n := by
  have read := (take_of_length (length_toLittleEndian width n)).map fun octets : Octets =>
    littleEndian octets.toList
  simp only [littleEndian_toLittleEndian h] at read
  exact read

theorem octet (b : UInt8) : Reads Reader.octet [b] b.toNat := by
  have taken : Reads (Reader.take 1) [b] #[b] := take [b]
  have read := taken.map fun octets : Octets => littleEndian octets.toList
  have one : littleEndian [b] = b.toNat := by simp [littleEndian]
  rw [← one]
  exact read

theorem word {n : Nat} (h : n < 0x10000) : Reads Reader.word (toLittleEndian 2 n) n :=
  number (by simpa using h)

theorem dword {n : Nat} (h : n < 0x100000000) : Reads Reader.dword (toLittleEndian 4 n) n :=
  number (by simpa using h)

end Reads

end WinFloor.Metadata
