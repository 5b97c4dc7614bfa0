import WinFloor.Fault
import WinFloor.Text.Utf8

/-!
The octets of a file, and reading numbers and names at an offset. Every read says whether it stays
inside the file.
-/
namespace WinFloor

abbrev Octets := Array UInt8

/-- The number whose octets are given, the lowest first. -/
def littleEndian : List UInt8 → Nat
  | [] => 0
  | b :: rest => b.toNat + 256 * littleEndian rest

/-- The lowest `width` octets of a number, the lowest first. -/
def toLittleEndian : (width : Nat) → Nat → List UInt8
  | 0, _ => []
  | width + 1, n => UInt8.ofNat n :: toLittleEndian width (n / 256)

theorem shiftLeft_octet (width : Nat) : 1 <<< (8 * (width + 1)) = 256 * (1 <<< (8 * width)) := by
  rw [Nat.mul_succ, Nat.shiftLeft_add, Nat.shiftLeft_eq _ 8, Nat.mul_comm]

theorem littleEndian_lt (bs : List UInt8) : littleEndian bs < 1 <<< (8 * bs.length) := by
  induction bs with
  | nil => decide
  | cons b rest ih =>
    have := b.toNat_lt
    rw [littleEndian, List.length_cons, shiftLeft_octet]
    omega

@[simp] theorem length_toLittleEndian (width n : Nat) :
    (toLittleEndian width n).length = width := by
  induction width generalizing n with
  | zero => rfl
  | succ width ih => simp [toLittleEndian, ih]

theorem littleEndian_toLittleEndian {width n : Nat} (h : n < 1 <<< (8 * width)) :
    littleEndian (toLittleEndian width n) = n := by
  induction width generalizing n with
  | zero =>
    have : n = 0 := by simpa using h
    rw [this]
    rfl
  | succ width ih =>
    have rest : n / 256 < 1 <<< (8 * width) := by
      rw [shiftLeft_octet] at h
      omega
    have low : (UInt8.ofNat n).toNat = n % 256 := by simp
    simp only [toLittleEndian, littleEndian, ih rest, low]
    omega

namespace Octets

/-- The `length` octets from `offset` on. -/
def slice (d : Octets) (offset length : Nat) : Except Fault Octets :=
  if offset + length ≤ d.size then .ok (d.extract offset (offset + length))
  else .error (.outOfBounds offset d.size)

/-- The number in the `width` octets from `offset` on. -/
def number (d : Octets) (offset width : Nat) : Except Fault Nat :=
  (littleEndian ·.toList) <$> d.slice offset width

def word (d : Octets) (offset : Nat) : Except Fault UInt16 :=
  UInt16.ofNat <$> d.number offset 2

def dword (d : Octets) (offset : Nat) : Except Fault UInt32 :=
  UInt32.ofNat <$> d.number offset 4

def qword (d : Octets) (offset : Nat) : Except Fault UInt64 :=
  UInt64.ofNat <$> d.number offset 8

/-- Where the first zero octet from `offset` on stands. -/
def zeroFrom? (d : Octets) (offset : Nat) : Option Nat :=
  if h : offset < d.size then
    if d[offset] = 0 then some offset else d.zeroFrom? (offset + 1)
  else none

/-- The text from `offset` up to a zero octet, malformed runs replaced. Without a zero octet the
read ends past the file. -/
def name (d : Octets) (offset : Nat) : Except Fault String :=
  if offset ≤ d.size then
    match d.zeroFrom? offset with
    | some stop => .ok (Text.Utf8.lenient (d.extract offset stop).toList)
    | none => .error (.outOfBounds d.size d.size)
  else .error (.outOfBounds offset d.size)

/-- Whether the octets begin with those of `signature`. -/
def startsWith (d : Octets) (signature : List UInt8) : Bool :=
  (d.extract 0 signature.length).toList == signature

theorem extract_take {d : Octets} {k offset stop : Nat} (within : stop ≤ k) :
    (d.take k).extract offset stop = d.extract offset stop := by
  rw [Array.take_eq_extract, Array.extract_extract, Nat.zero_add, Nat.zero_add,
    Nat.min_eq_left within]

theorem slice_eq_ok_iff {d s : Octets} {offset length : Nat} :
    d.slice offset length = .ok s ↔
      offset + length ≤ d.size ∧ s = d.extract offset (offset + length) := by
  unfold slice
  split
  next inside => simp [inside, eq_comm]
  next outside => simp [outside]

theorem slice_eq_error_iff {d : Octets} {offset length : Nat} {f : Fault} :
    d.slice offset length = .error f ↔
      d.size < offset + length ∧ f = .outOfBounds offset d.size := by
  unfold slice
  split
  next inside => simp [Nat.not_lt.2 inside]
  next outside => simp [Nat.not_le.1 outside, eq_comm]

theorem zeroFrom?_eq_some {d : Octets} {offset stop : Nat} (h : d.zeroFrom? offset = some stop) :
    offset ≤ stop ∧ stop < d.size := by
  fun_induction zeroFrom? d offset with
  | case1 offset inside =>
    cases h
    exact ⟨Nat.le_refl _, inside⟩
  | case2 offset inside _ ih =>
    have := ih h
    omega
  | case3 => simp at h

end Octets

end WinFloor
