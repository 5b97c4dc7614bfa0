import Mathlib.Data.List.DropRight
import WinFloor.Text.Blank

/-!
Trimming. Blanks around a text do not count (`trimmed_padded`), and what is left once they are off
begins and ends with other characters (`trimmed_eq_self_iff`), so that trimming it again changes
nothing.
-/
namespace WinFloor.Text

/-- There is nothing but white space. -/
def AllBlank (cs : List Char) : Prop := ∀ c ∈ cs, isBlank c = true

instance (cs : List Char) : Decidable (AllBlank cs) :=
  List.decidableBAll _ cs

theorem AllBlank.nil : AllBlank [] := fun _ listed => absurd listed List.not_mem_nil

theorem toList_trim (s : String) : (trim s).toList = trimmed s.toList := String.toList_ofList

theorem trimmed_eq_rdropWhile (cs : List Char) :
    trimmed cs = (cs.dropWhile isBlank).rdropWhile isBlank := rfl

theorem trimmed_eq_nil_iff {cs : List Char} : trimmed cs = [] ↔ AllBlank cs := by
  rw [trimmed_eq_rdropWhile, List.rdropWhile_eq_nil_iff]
  constructor
  · intro rest
    apply List.dropWhile_eq_nil_iff.mp
    cases left : cs.dropWhile isBlank with
    | nil => rfl
    | cons c behind =>
      -- What is left begins with a character that was not dropped.
      have first := List.head?_dropWhile_not isBlank cs
      rw [left] at first rest
      exact absurd (rest c List.mem_cons_self) (Bool.eq_false_iff.mp first)
  · intro blank
    rw [List.dropWhile_eq_nil_iff.mpr blank]
    exact AllBlank.nil

theorem rdropWhile_append_blank {cs behind : List Char} (blank : AllBlank behind) :
    (cs ++ behind).rdropWhile isBlank = cs.rdropWhile isBlank := by
  rw [List.rdropWhile, List.reverse_append, List.dropWhile_append_of_pos]
  · rfl
  · exact fun c listed => blank c (List.mem_reverse.mp listed)

theorem trimmed_padded {before behind : List Char} (cs : List Char) (front : AllBlank before)
    (back : AllBlank behind) : trimmed (before ++ cs ++ behind) = trimmed cs := by
  rw [trimmed_eq_rdropWhile, List.append_assoc, List.dropWhile_append_of_pos front,
    List.dropWhile_append]
  split
  next nothing =>
    have blank : AllBlank cs := List.dropWhile_eq_nil_iff.mp (List.isEmpty_iff.mp nothing)
    rw [List.dropWhile_eq_nil_iff.mpr back, trimmed_eq_nil_iff.mpr blank]
    rfl
  next => exact rdropWhile_append_blank back

theorem trimmed_append_blank {behind : List Char} (cs : List Char) (back : AllBlank behind) :
    trimmed (cs ++ behind) = trimmed cs :=
  trimmed_padded cs .nil back

theorem trimmed_blank_append {before : List Char} (cs : List Char) (front : AllBlank before) :
    trimmed (before ++ cs) = trimmed cs := by
  have padded := trimmed_padded cs front .nil
  rwa [List.append_nil] at padded

/-- What trimming takes off. -/
theorem exists_padding (cs : List Char) :
    ∃ before behind, AllBlank before ∧ AllBlank behind ∧ cs = before ++ trimmed cs ++ behind := by
  refine ⟨cs.takeWhile isBlank, (cs.dropWhile isBlank).rtakeWhile isBlank,
    fun c listed => List.mem_takeWhile_imp listed, fun c listed => ?_, ?_⟩
  · exact List.mem_takeWhile_imp (List.mem_reverse.mp listed)
  · rw [List.append_assoc, trimmed_eq_rdropWhile, List.rdropWhile_append_rtakeWhile,
      List.takeWhile_append_dropWhile]

theorem trimmed_trimmed (cs : List Char) : trimmed (trimmed cs) = trimmed cs := by
  obtain ⟨before, behind, front, back, whole⟩ := exists_padding cs
  calc trimmed (trimmed cs) = trimmed (before ++ trimmed cs ++ behind) :=
        (trimmed_padded (trimmed cs) front back).symm
    _ = trimmed cs := congrArg trimmed whole.symm

theorem trim_trim (s : String) : trim (trim s) = trim s := by
  rw [trim, toList_trim, trimmed_trimmed]
  rfl

theorem length_trimmed_le (cs : List Char) : (trimmed cs).length ≤ cs.length := by
  obtain ⟨before, behind, -, -, whole⟩ := exists_padding cs
  have lengths := congrArg List.length whole
  simp only [List.length_append] at lengths
  omega

/-- There is nothing to trim where a text neither begins nor ends with a blank. -/
theorem trimmed_eq_self_iff {cs : List Char} :
    trimmed cs = cs ↔
      (∀ c ∈ cs.head?, isBlank c = false) ∧ ∀ c ∈ cs.getLast?, isBlank c = false := by
  constructor
  · intro solid
    refine ⟨fun c first => ?_, fun c last => ?_⟩
    · obtain ⟨rest, rfl⟩ := List.head?_eq_some_iff.mp first
      by_contra blank
      have shorter := length_trimmed_le rest
      have front : AllBlank [c] := by simpa [AllBlank] using blank
      rw [← trimmed_blank_append rest front, List.singleton_append, solid] at shorter
      exact Nat.not_succ_le_self _ shorter
    · obtain ⟨rest, rfl⟩ := List.getLast?_eq_some_iff.mp last
      by_contra blank
      have shorter := length_trimmed_le rest
      have back : AllBlank [c] := by simpa [AllBlank] using blank
      rw [← trimmed_append_blank rest back, solid, List.length_append] at shorter
      exact Nat.not_succ_le_self _ shorter
  · rintro ⟨front, back⟩
    have first : cs.dropWhile isBlank = cs := by
      cases cs with
      | nil => rfl
      | cons c rest => exact List.dropWhile_cons_of_neg (by simp [front c rfl])
    rw [trimmed_eq_rdropWhile, first, List.rdropWhile_eq_self_iff]
    intro filled
    simp [back _ (List.getLast?_eq_some_getLast filled)]

/-- Whatever stands between two texts that need no trimming. -/
theorem trimmed_between {front back : List Char} (middle : List Char) (filled : front ≠ [])
    (filled' : back ≠ []) (solid : trimmed front = front) (solid' : trimmed back = back) :
    trimmed (front ++ middle ++ back) = front ++ middle ++ back := by
  rw [trimmed_eq_self_iff] at solid solid' ⊢
  refine ⟨fun c first => solid.1 c ?_, fun c last => solid'.2 c ?_⟩
  · rwa [List.append_assoc, List.head?_append_of_ne_nil _ filled] at first
  · rwa [List.getLast?_append_of_ne_nil _ filled'] at last

end WinFloor.Text
