import WinFloor.Proofs.Text.Blank
import WinFloor.Text.Lines

/-!
Lines put together to a text and taken apart again. No line that a text has holds a line feed
(`mem_of_mem_splitOn`), and lines that hold none come back as they were (`lines_unlines_unbroken`).
The first line that is found in a text is the first of its lines that is not blank
(`firstLine?_eq_some_iff`).
-/
namespace WinFloor.Text

section
variable [BEq α] [LawfulBEq α] {separator x : α} {piece xs : List α}

/-- What is split holds all that stands in a piece, and no piece holds the separator. -/
theorem mem_of_mem_splitOn (h : piece ∈ xs.splitOn separator) (member : x ∈ piece) :
    x ∈ xs ∧ x ≠ separator := by
  induction xs generalizing piece with
  | nil =>
    rw [List.splitOn_nil, List.mem_singleton] at h
    exact absurd (h ▸ member) List.not_mem_nil
  | cons first rest ih =>
    have later {piece : List α} (h : piece ∈ rest.splitOn separator) (member : x ∈ piece) :
        x ∈ first :: rest ∧ x ≠ separator :=
      ⟨List.mem_cons_of_mem _ (ih h member).1, (ih h member).2⟩
    rw [List.splitOn_cons_eq_if_modifyHead] at h
    split at h
    next ends =>
      rcases List.mem_cons.mp h with rfl | behind
      · exact absurd member List.not_mem_nil
      · exact later behind member
    next goesOn =>
      -- The first element belongs to the first piece of the rest.
      cases split : rest.splitOn separator with
      | nil => exact absurd split (List.splitOn_ne_nil separator rest)
      | cons begun others =>
        rw [split, List.modifyHead_cons, List.mem_cons] at h
        rw [split] at later
        rcases h with rfl | behind
        · rcases List.mem_cons.mp member with rfl | member
          · exact ⟨List.mem_cons_self, fun same => goesOn (beq_iff_eq.mpr same)⟩
          · exact later List.mem_cons_self member
        · exact later (List.mem_cons_of_mem _ behind) member

end

theorem toList_unlines (lines : List String) :
    (unlines lines).toList = lines.flatMap fun line => line.toList ++ ['\n'] := by
  have append (text : String) :
      (lines.foldl (fun text line => text ++ line ++ "\n") text).toList =
        text.toList ++ lines.flatMap fun line => line.toList ++ ['\n'] := by
    induction lines generalizing text with
    | nil => simp
    | cons line lines ih =>
      rw [List.foldl_cons, ih]
      simp
  exact append ""

/-- A line comes apart at its own line feeds, and behind the last one nothing is left. -/
theorem lines_unlines (texts : List String) :
    lines (unlines texts) = texts.flatMap lines ++ [[]] := by
  rw [lines, toList_unlines]
  induction texts with
  | nil => rw [List.flatMap_nil, List.splitOn_nil, List.flatMap_nil, List.nil_append]
  | cons text texts ih =>
    rw [List.flatMap_cons, List.append_assoc, List.singleton_append,
      List.splitOn_append_cons_self, ih, List.flatMap_cons, List.append_assoc, lines]

theorem lines_unlines_unbroken {texts : List String}
    (unbroken : ∀ text ∈ texts, '\n' ∉ text.toList) :
    (lines (unlines texts)).map String.ofList = texts ++ [""] := by
  have whole : ∀ text ∈ texts, lines text = [text.toList] := fun text listed =>
    List.splitOn_eq_singleton (unbroken text listed)
  rw [lines_unlines, List.flatMap_congr whole, List.map_append, List.map_flatMap]
  simp

/-- The first line of the text that is not blank is `found` when it is trimmed. -/
def IsFirstLine (text found : String) : Prop :=
  ∃ before line behind, lines text = before ++ line :: behind ∧
    (∀ other ∈ before, AllBlank other) ∧ ¬AllBlank line ∧ found = String.ofList (trimmed line)

theorem firstLine?_eq_some_iff {text found : String} :
    firstLine? text = some found ↔ IsFirstLine text found := by
  have passed {line : List Char} :
      (if (trimmed line).isEmpty then none else some (String.ofList (trimmed line))) = none ↔
        AllBlank line := by
    rw [← trimmed_eq_nil_iff, ← List.isEmpty_iff]
    split
    next empty => simp [empty]
    next filled => simp [filled]
  have taken {line : List Char} :
      (if (trimmed line).isEmpty then none else some (String.ofList (trimmed line))) = some found ↔
        ¬AllBlank line ∧ found = String.ofList (trimmed line) := by
    rw [← trimmed_eq_nil_iff, ← List.isEmpty_iff]
    split
    next empty => simp [empty]
    next filled => simp [filled, eq_comm]
  rw [firstLine?, List.findSome?_map, List.findSome?_eq_some_iff]
  simp only [Function.comp_apply, passed, taken, IsFirstLine]
  constructor
  · rintro ⟨before, line, behind, whole, ⟨filled, rfl⟩, blank⟩
    exact ⟨before, line, behind, whole, blank, filled, rfl⟩
  · rintro ⟨before, line, behind, whole, blank, filled, rfl⟩
    exact ⟨before, line, behind, whole, ⟨filled, rfl⟩, blank⟩

end WinFloor.Text
