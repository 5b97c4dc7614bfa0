import WinFloor.Octets

/-!
Two files of one size that agree on a part. What is read there is the same in both: numbers
(`Octets.number_congr`) and texts with their zero octet (`Octets.name_congr`).
-/
namespace WinFloor

/-- A part of a file: where it starts, and how many octets it has. -/
structure Span where
  start : Nat
  length : Nat
  deriving DecidableEq, Repr

namespace Span

def Covers (s : Span) (i : Nat) : Prop := s.start ≤ i ∧ i < s.start + s.length

def Apart (s t : Span) : Prop := s.start + s.length ≤ t.start ∨ t.start + t.length ≤ s.start

instance (s : Span) (i : Nat) : Decidable (s.Covers i) := inferInstanceAs (Decidable (_ ∧ _))

instance (s t : Span) : Decidable (s.Apart t) := inferInstanceAs (Decidable (_ ∨ _))

/-- The two files have the same octets there. -/
def Agree (s : Span) (d d' : Octets) : Prop :=
  ∀ i, s.Covers i → d'[i]? = d[i]?

theorem Agree.symm {s : Span} {d d' : Octets} (agree : s.Agree d d') : s.Agree d' d :=
  fun i covered => (agree i covered).symm

end Span

namespace Octets

/-- The text from an offset up to its zero octet, and with it. -/
def textSpan? (d : Octets) (offset : Nat) : Option Span :=
  (d.zeroFrom? offset).map fun stop => ⟨offset, stop + 1 - offset⟩

variable {d d' : Octets} {start length : Nat}

theorem extract_congr (size : d'.size = d.size) (agree : Span.Agree ⟨start, length⟩ d d')
    {stop : Nat} (within : stop ≤ start + length) :
    d'.extract start stop = d.extract start stop := by
  apply Array.ext_getElem?
  intro i
  rw [Array.getElem?_extract, Array.getElem?_extract, size]
  split
  next inside => exact agree (start + i) ⟨Nat.le_add_right .., by simp only; omega⟩
  next => rfl

theorem slice_congr (size : d'.size = d.size) (agree : Span.Agree ⟨start, length⟩ d d') :
    d'.slice start length = d.slice start length := by
  unfold slice
  rw [size, extract_congr size agree (Nat.le_refl _)]

theorem number_congr (size : d'.size = d.size) (agree : Span.Agree ⟨start, length⟩ d d') :
    d'.number start length = d.number start length := by
  rw [number, number, slice_congr size agree]

/-- Whether a number is there depends on the size of the file only. -/
theorem number_toOption_eq_none_iff :
    (d.number start length).toOption = none ↔ d.size < start + length := by
  unfold number slice
  split
  next inside =>
    refine ⟨fun none => ?_, fun outside => absurd inside (Nat.not_le.mpr outside)⟩
    cases none
  next outside => exact ⟨fun _ => Nat.not_le.mp outside, fun _ => rfl⟩

theorem zeroFrom?_congr {offset stop : Nat} (found : d.zeroFrom? offset = some stop)
    (agree : Span.Agree ⟨offset, stop + 1 - offset⟩ d d') : d'.zeroFrom? offset = some stop := by
  fun_induction zeroFrom? d offset with
  | case1 offset inside zero =>
    cases found
    have same := agree stop ⟨Nat.le_refl _, by simp only; omega⟩
    rw [Array.getElem?_eq_getElem inside, zero] at same
    obtain ⟨inside', zero'⟩ := Array.getElem?_eq_some_iff.mp same
    rw [zeroFrom?, dif_pos inside', if_pos zero']
  | case2 offset inside nonzero ih =>
    have behind := (zeroFrom?_eq_some found).1
    have same := agree offset ⟨Nat.le_refl _, by simp only; omega⟩
    rw [Array.getElem?_eq_getElem inside] at same
    obtain ⟨inside', same⟩ := Array.getElem?_eq_some_iff.mp same
    rw [zeroFrom?, dif_pos inside', if_neg (same ▸ nonzero)]
    refine ih found fun i covered => agree i ?_
    simp only [Span.Covers] at covered ⊢
    omega
  | case3 => cases found

/-- A name is the same in two files that agree on it, in whichever of them it stands. -/
theorem name_congr {offset : Nat} (size : d'.size = d.size)
    (agree : ∀ file ∈ [d, d'], ∀ span ∈ file.textSpan? offset, span.Agree d d') :
    (d'.name offset).toOption = (d.name offset).toOption := by
  unfold name
  rw [size]
  split
  · cases found : d.zeroFrom? offset with
    | some stop =>
      have same := agree d (by simp) ⟨offset, stop + 1 - offset⟩ (by simp [textSpan?, found])
      rw [zeroFrom?_congr found same]
      simp only
      rw [extract_congr size same (by omega)]
    | none =>
      cases found' : d'.zeroFrom? offset with
      | none => rfl
      | some stop =>
        have same := agree d' (by simp) ⟨offset, stop + 1 - offset⟩ (by simp [textSpan?, found'])
        rw [zeroFrom?_congr found' same.symm] at found
        cases found
  · rfl

end Octets

end WinFloor
