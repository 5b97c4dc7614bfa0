import Mathlib.Data.List.Basic
import WinFloor.Octets

/-!
Runs in which every operation is guarded: a sum or product that does not fit its type, a difference
below zero, and an index or slice outside of its octets each end the run. A guarded run that is
`Sound` meets none of these, and comes to what the plain one does.
-/
namespace WinFloor.Guarded

/-- What ends a run early. -/
inductive Ending
  | fault (fault : Fault)
  | outOfRange
  deriving DecidableEq, Repr

abbrev Run := Except Ending

/-- The numbers below this fit a word of the machine. -/
def wordBound : Nat := 0x10000000000000000

/-- The numbers below this fit a field of 32 bits. -/
def fieldBound : Nat := 0x100000000

/-- No more octets than this are ever in memory as one. -/
def memoryBound : Nat := 0x8000000000000000

def sum (bound m n : Nat) : Run Nat :=
  if m + n < bound then .ok (m + n) else .error .outOfRange

def product (bound m n : Nat) : Run Nat :=
  if m * n < bound then .ok (m * n) else .error .outOfRange

def difference (m n : Nat) : Run Nat :=
  if n ≤ m then .ok (m - n) else .error .outOfRange

def octetAt (d : Octets) (place : Nat) : Run UInt8 :=
  match d[place]? with
  | some b => .ok b
  | none => .error .outOfRange

/-- The octets from `first` up to `stop`. -/
def slice (d : Octets) (first stop : Nat) : Run Octets :=
  if first ≤ stop ∧ stop ≤ d.size then .ok (d.extract first stop) else .error .outOfRange

/-- The first octets, one by one. -/
def octets (d : Octets) (count : Nat) : Run (List UInt8) :=
  (List.range count).mapM (octetAt d)

/-- The run with its fault, if there is one, in place of another. -/
def orFault (r : Run α) (f : Fault) : Run α :=
  match r with
  | .error (.fault _) => .error (.fault f)
  | r => r

/-! ## Operations in range -/

theorem sum_eq {bound m n : Nat} (h : m + n < bound) : sum bound m n = .ok (m + n) :=
  if_pos h

theorem product_eq {bound m n : Nat} (h : m * n < bound) : product bound m n = .ok (m * n) :=
  if_pos h

theorem difference_eq {m n : Nat} (h : n ≤ m) : difference m n = .ok (m - n) :=
  if_pos h

theorem slice_eq {d : Octets} {first stop : Nat} (ordered : first ≤ stop) (inside : stop ≤ d.size) :
    slice d first stop = .ok (d.extract first stop) :=
  if_pos ⟨ordered, inside⟩

theorem octetAt_eq {d : Octets} {place : Nat} (h : place < d.size) :
    octetAt d place = .ok d[place] := by
  rw [octetAt, Array.getElem?_eq_getElem h]

theorem ok_bind (a : α) (f : α → Run β) : ((.ok a : Run α) >>= f) = f a := rfl

/-- What was done first, where a whole run came to a result. -/
theorem exists_of_bind_ok {r : Except ε α} {next : α → Except ε β} {b : β}
    (h : (r >>= next) = .ok b) : ∃ a, r = .ok a ∧ next a = .ok b := by
  cases r with
  | error e => cases h
  | ok a => exact ⟨a, rfl, h⟩

theorem mapM_eq {f : α → Run β} {g : α → β} {xs : List α} (h : ∀ x ∈ xs, f x = .ok (g x)) :
    xs.mapM f = .ok (xs.map g) := by
  induction xs with
  | nil => rfl
  | cons x xs ih =>
    rw [List.mapM_cons, h x List.mem_cons_self, ok_bind,
      ih fun y m => h y (List.mem_cons_of_mem _ m)]
    rfl

theorem filterMapM_eq {f : α → Run (Option β)} {g : α → Option β} {xs : List α}
    (h : ∀ x ∈ xs, f x = .ok (g x)) : xs.filterMapM f = .ok (xs.filterMap g) := by
  induction xs with
  | nil => rfl
  | cons x xs ih =>
    have rest := ih fun y m => h y (List.mem_cons_of_mem _ m)
    rw [List.filterMapM_cons, h x List.mem_cons_self, ok_bind, rest, List.filterMap_cons]
    cases g x <;> rfl

theorem octets_eq {d : Octets} {count : Nat} (h : d.size = count) :
    octets d count = .ok d.toList := by
  subst h
  have each : ∀ i ∈ List.range d.size, octetAt d i = .ok d[i]! := by
    intro i listed
    have inside := List.mem_range.mp listed
    rw [octetAt_eq inside, getElem!_pos d i inside]
  rw [octets, mapM_eq each]
  congr 1
  apply List.ext_getElem
  · simp
  · intro i inside _
    have inside : i < d.size := by simpa using inside
    simp [getElem!_pos d i inside]

/-- Octets read one by one from a place on. -/
theorem octetsFrom_eq {d : Octets} {place count : Nat} (inside : place + count ≤ d.size)
    (small : d.size < memoryBound) :
    ((List.range count).mapM fun i => do octetAt d (← sum wordBound place i)) =
      .ok (d.extract place (place + count)).toList := by
  rw [memoryBound] at small
  have each : ∀ i ∈ List.range count,
      (do octetAt d (← sum wordBound place i)) = .ok d[place + i]! := by
    intro i listed
    have below := List.mem_range.mp listed
    have within : place + i < d.size := by omega
    rw [sum_eq (by rw [wordBound]; omega), ok_bind, octetAt_eq within, getElem!_pos d _ within]
  rw [mapM_eq each]
  congr 1
  apply List.ext_getElem
  · simp only [List.length_map, List.length_range, Array.length_toList, Array.size_extract]
    omega
  · intro i before _
    have below : i < count := by simpa using before
    have within : place + i < d.size := by omega
    simp [getElem!_pos d (place + i) within]

theorem startsWith_iff {d : Octets} {signature : List UInt8} :
    d.startsWith signature = true ↔ (d.extract 0 signature.length).toList = signature := by
  rw [Octets.startsWith, beq_iff_eq]

/-! ## Sound runs -/

/-- The guarded run comes to what the plain one does; no operation of it is out of range. -/
def Sound (g : Run α) (r : Except Fault α) : Prop := g = r.mapError .fault

namespace Sound

theorem ok (a : α) : Sound (.ok a) (.ok a) := rfl

theorem error (f : Fault) : Sound (.error (.fault f) : Run α) (.error f) := rfl

theorem bind {g : Run α} {r : Except Fault α} {next : α → Run β} {rest : α → Except Fault β}
    (h : Sound g r) (after : ∀ a, r = .ok a → Sound (next a) (rest a)) :
    Sound (g >>= next) (r >>= rest) := by
  cases r with
  | error f =>
    rw [h]
    rfl
  | ok a =>
    rw [h]
    exact after a rfl

theorem map {g : Run α} {r : Except Fault α} (f : α → β) (h : Sound g r) :
    Sound (f <$> g) (f <$> r) := by
  rw [h]
  cases r <;> rfl

theorem mapM {g : α → Run β} {r : α → Except Fault β} {xs : List α}
    (h : ∀ x ∈ xs, Sound (g x) (r x)) : Sound (xs.mapM g) (xs.mapM r) := by
  induction xs with
  | nil => exact ok []
  | cons x xs ih =>
    rw [List.mapM_cons, List.mapM_cons]
    apply (h x List.mem_cons_self).bind
    intro b _
    apply (ih fun y m => h y (List.mem_cons_of_mem _ m)).bind
    intro bs _
    exact ok (b :: bs)

/-- What comes behind a check that both make, with one fault. -/
theorem throwing {c : Prop} [Decidable c] {f : Fault} {next : Unit → Run α}
    {rest : Unit → Except Fault α} (h : ¬ c → Sound (next ()) (rest ())) :
    Sound (if c then throw (.fault f) >>= next else next ())
      (if c then throw f >>= rest else rest ()) := by
  by_cases stops : c
  · rw [if_pos stops, if_pos stops]
    exact error f
  · rw [if_neg stops, if_neg stops]
    exact h stops

end Sound

/-! ## Numbers at an offset -/

/-- The octets that a checked sum leaves inside. -/
def checkedSlice (d : Octets) (offset length : Nat) : Run Octets :=
  if offset + length < wordBound ∧ offset + length ≤ d.size then
    .ok (d.extract offset (offset + length))
  else .error (.fault (.outOfBounds offset d.size))

def number (d : Octets) (offset width : Nat) : Run Nat := do
  littleEndian <$> octets (← checkedSlice d offset width) width

def word (d : Octets) (offset : Nat) : Run UInt16 := UInt16.ofNat <$> number d offset 2
def dword (d : Octets) (offset : Nat) : Run UInt32 := UInt32.ofNat <$> number d offset 4
def qword (d : Octets) (offset : Nat) : Run UInt64 := UInt64.ofNat <$> number d offset 8

section

variable {d : Octets} (small : d.size < memoryBound)
include small

theorem sound_slice (offset length : Nat) :
    Sound (checkedSlice d offset length) (d.slice offset length) := by
  rw [memoryBound] at small
  rw [checkedSlice, Octets.slice, wordBound]
  by_cases inside : offset + length ≤ d.size
  · rw [if_pos inside, if_pos ⟨by omega, inside⟩]
    exact .ok _
  · rw [if_neg inside, if_neg fun both => inside both.2]
    exact .error _

theorem sound_number (offset width : Nat) :
    Sound (number d offset width) (d.number offset width) := by
  rw [number, Octets.number, map_eq_pure_bind]
  apply (sound_slice small offset width).bind
  intro s taken
  obtain ⟨inside, rfl⟩ := Octets.slice_eq_ok_iff.mp taken
  rw [octets_eq (by rw [Array.size_extract]; omega)]
  exact .ok _

theorem sound_word (offset : Nat) : Sound (word d offset) (d.word offset) :=
  (sound_number small offset 2).map _

theorem sound_dword (offset : Nat) : Sound (dword d offset) (d.dword offset) :=
  (sound_number small offset 4).map _

theorem sound_qword (offset : Nat) : Sound (qword d offset) (d.qword offset) :=
  (sound_number small offset 8).map _

end

end WinFloor.Guarded
