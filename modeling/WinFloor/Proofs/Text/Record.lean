import WinFloor.Proofs.Text.Blank
import WinFloor.Text.Record

/-!
Splitting a record that was written. The reader gives back the fields whatever they hold: outside
quotes only a comma and a quote mean anything to it (`foldl_unmarked`), which a field without quotes
has none of, and between quotes only a quote does, which is written twice (`foldl_doubled`). So each
field ends at the comma that was written behind it (`foldl_line`), and what is split is what was
written (`split?_written_iff`).
-/
namespace WinFloor.Text.Record

variable {fields : List (List Char)} {current : List Char}

theorem step_comma {mode : Mode} (h : mode ≠ .quoted) :
    Reader.step ⟨fields, current, mode⟩ ',' = ⟨current.reverse :: fields, [], .plain⟩ := by
  cases mode with
  | plain => rfl
  | quoted => exact absurd rfl h
  | closing => rfl

theorem step_unmarked {c : Char} (comma : c ≠ ',') (quote : c ≠ '"') :
    Reader.step ⟨fields, current, .plain⟩ c = ⟨fields, c :: current, .plain⟩ := by
  simp [Reader.step, Reader.plain, Reader.push, comma, quote]

theorem step_closing {c : Char} (quote : c ≠ '"') :
    Reader.step ⟨fields, current, .closing⟩ c = Reader.step ⟨fields, current, .plain⟩ c := by
  simp [Reader.step, quote]

/-- There is no comma and no quote. -/
def Unmarked (cs : List Char) : Prop := ∀ c ∈ cs, c ≠ ',' ∧ c ≠ '"'

theorem unmarked_of_unneeded {cs : List Char} (h : cs.any needsQuotes = false) : Unmarked cs := by
  intro c listed
  have plain := List.any_eq_false.mp h c listed
  simp only [needsQuotes, Bool.or_eq_true, beq_iff_eq, not_or] at plain
  exact ⟨plain.1.1.1, plain.1.1.2⟩

theorem unmarked_of_blank {cs : List Char} (blank : AllBlank cs) : Unmarked cs := by
  intro c listed
  constructor
  · rintro rfl
    exact absurd (blank _ listed) (by decide)
  · rintro rfl
    exact absurd (blank _ listed) (by decide)

theorem foldl_unmarked {cs : List Char} (h : Unmarked cs) :
    cs.foldl Reader.step ⟨fields, current, .plain⟩ = ⟨fields, cs.reverse ++ current, .plain⟩ := by
  induction cs generalizing current with
  | nil => rfl
  | cons c cs ih =>
    have first := h c List.mem_cons_self
    rw [List.foldl_cons, step_unmarked first.1 first.2,
      ih fun c listed => h c (List.mem_cons_of_mem _ listed)]
    simp

theorem foldl_doubled (cs : List Char) :
    (doubled cs).foldl Reader.step ⟨fields, current, .quoted⟩ =
      ⟨fields, cs.reverse ++ current, .quoted⟩ := by
  induction cs generalizing current with
  | nil => rfl
  | cons c cs ih =>
    have reversed : (c :: cs).reverse ++ current = cs.reverse ++ (c :: current) := by simp
    rw [doubled_cons, reversed, List.foldl_append, ← ih]
    by_cases quote : c = '"'
    · subst quote
      rfl
    · simp [quote, Reader.step, Reader.push]

/-- Blanks in front of a field are dropped where it has quotes, and else they belong to it. -/
theorem foldl_field {blanks : List Char} (blank : AllBlank blanks) (text : String) :
    ∃ mode : Mode, mode ≠ .quoted ∧
      (field text).toList.foldl Reader.step ⟨fields, blanks, .plain⟩ =
        ⟨fields,
          text.toList.reverse ++ (if text.toList.any needsQuotes then [] else blanks), mode⟩ := by
  by_cases needed : text.toList.any needsQuotes = true
  · refine ⟨.closing, by decide, ?_⟩
    have opened : Reader.step ⟨fields, blanks, .plain⟩ '"' = ⟨fields, [], .quoted⟩ := by
      simp [Reader.step, Reader.plain, List.all_eq_true.mpr blank]
    rw [field, if_pos needed, if_pos needed, String.toList_ofList, List.cons_append,
      List.foldl_cons, opened, List.foldl_append, foldl_doubled]
    rfl
  · refine ⟨.plain, by decide, ?_⟩
    rw [field, if_neg needed, if_neg needed,
      foldl_unmarked (unmarked_of_unneeded (Bool.eq_false_iff.mpr needed))]

/-- Blanks behind a field belong to it. -/
theorem foldl_blank {blanks : List Char} (blank : AllBlank blanks) {mode : Mode}
    (outside : mode ≠ .quoted) :
    ∃ after : Mode, after ≠ .quoted ∧
      blanks.foldl Reader.step ⟨fields, current, mode⟩ =
        ⟨fields, blanks.reverse ++ current, after⟩ := by
  cases mode with
  | plain => exact ⟨.plain, by decide, foldl_unmarked (unmarked_of_blank blank)⟩
  | quoted => exact absurd rfl outside
  | closing =>
    cases blanks with
    | nil => exact ⟨.closing, by decide, rfl⟩
    | cons c blanks =>
      refine ⟨.plain, by decide, ?_⟩
      have unmarked := unmarked_of_blank blank
      rw [List.foldl_cons, step_closing (unmarked c List.mem_cons_self).2, ← List.foldl_cons,
        foldl_unmarked unmarked]

/-- Behind a written record the reader has all its fields, the last one not yet ended. -/
theorem foldl_line {texts : List String} (filled : texts ≠ []) :
    ∃ r : Reader, (line texts).toList.foldl Reader.step ⟨fields, [], .plain⟩ = r ∧
      r.mode ≠ .quoted ∧ r.endField.fields = (texts.map String.toList).reverse ++ fields := by
  induction texts generalizing fields with
  | nil => exact absurd rfl filled
  | cons text texts ih =>
    obtain ⟨mode, outside, run⟩ := @foldl_field fields [] .nil text
    rw [ite_self, List.append_nil] at run
    cases texts with
    | nil =>
      refine ⟨_, rfl, ?_⟩
      rw [line_singleton, run]
      exact ⟨outside, by simp [Reader.endField]⟩
    | cons next texts =>
      obtain ⟨r, rest, ends, all⟩ := @ih (text.toList :: fields) (List.cons_ne_nil _ _)
      refine ⟨r, ?_, ends, ?_⟩
      · rw [line_cons_cons, String.toList_append, String.toList_append, List.foldl_append,
          List.foldl_append, run]
        change (line (next :: texts)).toList.foldl Reader.step (Reader.step _ ',') = r
        rw [step_comma outside, List.reverse_reverse, rest]
      · rw [all]
        simp

theorem split?_line {texts : List String} (filled : texts ≠ []) :
    split? (line texts) = some texts := by
  obtain ⟨r, read, outside, all⟩ := @foldl_line [] texts filled
  rw [split?, Reader.start, read]
  simp [outside, all, Function.comp_def]

/-- The fields of a record come back whatever is in them, as long as there are any: no field at all
is written like one that is empty. -/
theorem split?_written_iff (texts : List String) :
    split? (",".intercalate (texts.map field)) = some texts ↔ texts ≠ [] := by
  constructor
  · rintro read rfl
    exact absurd read (by decide)
  · exact split?_line

end WinFloor.Text.Record
