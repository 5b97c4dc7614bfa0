import WinFloor.ModuleName
import WinFloor.Proofs.Text.Blank

/-!
Lower case of ASCII letters before anything else is done changes nothing: white space stays white
space (`trim_lowerAscii`), and the lower case of the whole text is the same, final sigmas included
(`lowercase_lowerAscii`).
-/
namespace WinFloor.Text

theorem toLower_of_not_ascii {c : Char} (h : 0x80 ≤ c.toNat) : c.toLower = c := by
  have past : ¬(c.val ≥ 'A'.val ∧ c.val ≤ 'Z'.val) := by
    rintro ⟨-, upTo⟩
    have : c.toNat ≤ 'Z'.toNat := UInt32.le_iff_toNat_le.mp upTo
    have : 'Z'.toNat = 90 := rfl
    omega
  exact dif_neg past

/-- A function ignores lower case of ASCII letters if it does so on the characters of ASCII. -/
theorem apply_toLower {α : Type} (f : Char → α)
    (ascii : ∀ n < 0x80, f (Char.ofNat n).toLower = f (Char.ofNat n)) (c : Char) :
    f c.toLower = f c := by
  by_cases low : c.toNat < 0x80
  · have := ascii c.toNat low
    rwa [Char.ofNat_toNat] at this
  · rw [toLower_of_not_ascii (Nat.not_lt.mp low)]

theorem isBlank_toLower (c : Char) : isBlank c.toLower = isBlank c :=
  apply_toLower isBlank (by decide) c

theorem isCased_toLower (c : Char) : isCased c.toLower = isCased c :=
  apply_toLower isCased (by decide) c

theorem isCaseIgnorable_toLower (c : Char) : isCaseIgnorable c.toLower = isCaseIgnorable c :=
  apply_toLower isCaseIgnorable (by decide) c

theorem lowerChar_toLower (c : Char) : lowerChar c.toLower = lowerChar c :=
  apply_toLower lowerChar (by decide) c

theorem eq_capitalSigma_toLower (c : Char) : c.toLower = capitalSigma ↔ c = capitalSigma := by
  have same := apply_toLower (fun c => decide (c = capitalSigma)) (by decide) c
  simpa using same

theorem lowerAscii_append (a b : String) : lowerAscii (a ++ b) = lowerAscii a ++ lowerAscii b := by
  simp [lowerAscii]

theorem toList_lowerAscii (s : String) : (lowerAscii s).toList = s.toList.map Char.toLower := by
  simp [lowerAscii]

theorem lowerAscii_lowerAscii (s : String) : lowerAscii (lowerAscii s) = lowerAscii s := by
  rw [lowerAscii, toList_lowerAscii, List.map_map, lowerAscii]
  congr 2
  funext c
  exact apply_toLower Char.toLower (by decide) c

/-! ## White space -/

theorem dropWhile_isBlank_toLower (cs : List Char) :
    (cs.map Char.toLower).dropWhile isBlank = (cs.dropWhile isBlank).map Char.toLower := by
  rw [List.dropWhile_map]
  congr 2
  funext c
  exact isBlank_toLower c

theorem trim_lowerAscii (s : String) : trim (lowerAscii s) = lowerAscii (trim s) := by
  simp [trim, trimmed, lowerAscii, dropWhile_isBlank_toLower, ← List.map_reverse]

/-! ## Lower case of a text -/

theorem startsCased_toLower (cs : List Char) :
    startsCased (cs.map Char.toLower) = startsCased cs := by
  have ignored : isCaseIgnorable ∘ Char.toLower = isCaseIgnorable := funext isCaseIgnorable_toLower
  have cased : isCased ∘ Char.toLower = isCased := funext isCased_toLower
  rw [startsCased, List.dropWhile_map, ignored, List.head?_map, Option.map_map, cased, startsCased]

theorem lowerBetween_toLower (before : List Char) (c : Char) (after : List Char) :
    lowerBetween (before.map Char.toLower) c.toLower (after.map Char.toLower) =
      lowerBetween before c after := by
  simp only [lowerBetween, eq_capitalSigma_toLower, startsCased_toLower, lowerChar_toLower]

theorem lowerAfter_toLower (before rest : List Char) :
    lowerAfter [] (before.map Char.toLower) (rest.map Char.toLower) =
      lowerAfter [] before rest := by
  induction rest generalizing before with
  | nil => rfl
  | cons c rest ih =>
    rw [List.map_cons, lowerAfter_cons, lowerAfter_cons, lowerBetween_toLower, ← List.map_cons, ih]

theorem lowercase_lowerAscii (s : String) : lowercase (lowerAscii s) = lowercase s := by
  have same := lowerAfter_toLower [] s.toList
  rw [List.map_nil] at same
  rw [lowercase, toList_lowerAscii, same, lowercase]

/-- Texts that differ in the case of ASCII letters have one lower case. -/
theorem lowercase_eq_of_lowerAscii {s t : String} (h : lowerAscii s = lowerAscii t) :
    lowercase s = lowercase t := by
  rw [← lowercase_lowerAscii s, h, lowercase_lowerAscii]

end WinFloor.Text

namespace WinFloor.ModuleName

theorem normalize_normalize (name : String) : normalize (normalize name) = normalize name := by
  rw [normalize, normalize, Text.trim_lowerAscii, Text.trim_trim, Text.lowerAscii_lowerAscii]

theorem normalize_eq_of_lowerAscii {a b : String} (h : Text.lowerAscii a = Text.lowerAscii b) :
    normalize a = normalize b := by
  rw [normalize, ← Text.trim_lowerAscii, h, Text.trim_lowerAscii, normalize]

end WinFloor.ModuleName
