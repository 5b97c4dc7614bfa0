import WinFloor.Proofs.Text.Lines
import WinFloor.Text.Record

/-!
Tables: records one after the other, each ended by a line break. A strict reader takes a line break
between quotes for a part of the field, and every other one for the end of a record (`read?`). It
gives back the records that were written, one a line, whatever their fields hold (`read?_unlines`).
-/
namespace WinFloor.Text.Table

/-- Where the reader stands: at the start of a field, in one without quotes, between quotes, behind a
quote that closes unless another follows, or behind a carriage return that ends the record together
with a line feed. -/
inductive Place
  | fresh
  | plain
  | quoted
  | closing
  | returned
  deriving DecidableEq

/-- The reader between two characters: the records read, the fields of the record begun and the
characters of the field begun, all last first. -/
structure Reader where
  records : List (List String)
  fields : List String
  current : List Char
  place : Place

namespace Reader

def start : Reader := ⟨[], [], [], .fresh⟩

def push (r : Reader) (c : Char) (place : Place) : Reader :=
  { r with current := c :: r.current, place }

def endField (r : Reader) : Reader :=
  { r with fields := String.ofList r.current.reverse :: r.fields, current := [], place := .fresh }

def endRecord (r : Reader) : Reader :=
  { r.endField with records := r.endField.fields.reverse :: r.records, fields := [] }

/-- A character outside quotes. A field has quotes around all of it or none at all. -/
def outside (r : Reader) (c : Char) : Option Reader :=
  if c = ',' then some r.endField
  else if c = '\n' then some r.endRecord
  else if c = '\r' then some { r with place := .returned }
  else if c = '"' then
    match r.place with
    | .fresh => some { r with place := .quoted }
    | .closing => some (r.push c .quoted)
    | _ => none
  else if r.place = .closing then none
  else some (r.push c .plain)

def step (r : Reader) (c : Char) : Option Reader :=
  match r.place with
  | .quoted => some (if c = '"' then { r with place := .closing } else r.push c .quoted)
  | .returned => if c = '\n' then some r.endRecord else none
  | _ => r.outside c

/-- The records at the end of the text. A last record need not have a line break behind it. -/
def finish (r : Reader) : Option (List (List String)) :=
  match r.place, r.fields with
  | .quoted, _ | .returned, _ => none
  | .fresh, [] => some r.records.reverse
  | _, _ => some r.endRecord.records.reverse

end Reader

/-- The records of a table. -/
def read? (text : String) : Option (List (List String)) :=
  (text.toList.foldlM Reader.step .start).bind Reader.finish

/-! ## Fields -/

/-- A field can end here. -/
def Place.CanEnd (place : Place) : Prop := place ≠ .quoted ∧ place ≠ .returned

section
variable {rs : List (List String)} {fs : List String} {current : List Char} {place : Place}

theorem step_comma (h : place.CanEnd) :
    Reader.step ⟨rs, fs, current, place⟩ ',' =
      some ⟨rs, String.ofList current.reverse :: fs, [], .fresh⟩ := by
  obtain ⟨outsideQuotes, inLine⟩ := h
  cases place with
  | quoted => exact absurd rfl outsideQuotes
  | returned => exact absurd rfl inLine
  | fresh => rfl
  | plain => rfl
  | closing => rfl

theorem step_lineFeed (h : place.CanEnd) :
    Reader.step ⟨rs, fs, current, place⟩ '\n' =
      some ⟨(String.ofList current.reverse :: fs).reverse :: rs, [], [], .fresh⟩ := by
  obtain ⟨outsideQuotes, inLine⟩ := h
  cases place with
  | quoted => exact absurd rfl outsideQuotes
  | returned => exact absurd rfl inLine
  | fresh => rfl
  | plain => rfl
  | closing => rfl

theorem step_plain {c : Char} (h : Record.needsQuotes c = false)
    (outside : place = .fresh ∨ place = .plain) :
    Reader.step ⟨rs, fs, current, place⟩ c = some ⟨rs, fs, c :: current, .plain⟩ := by
  simp only [Record.needsQuotes, Bool.or_eq_false_iff, beq_eq_false_iff_ne] at h
  obtain ⟨⟨⟨comma, quote⟩, feed⟩, ret⟩ := h
  have taken (place : Place) (notClosing : place ≠ .closing) :
      Reader.outside ⟨rs, fs, current, place⟩ c = some ⟨rs, fs, c :: current, .plain⟩ := by
    rw [Reader.outside, if_neg comma, if_neg feed, if_neg ret, if_neg quote, if_neg notClosing]
    rfl
  rcases outside with rfl | rfl
  · exact taken .fresh (by decide)
  · exact taken .plain (by decide)

/-- Characters that need no quotes are taken as they come. -/
theorem run_plain {cs : List Char} (h : cs.any Record.needsQuotes = false)
    (outside : place = .fresh ∨ place = .plain) :
    ∃ after, after.CanEnd ∧
      cs.foldlM Reader.step ⟨rs, fs, current, place⟩ =
        some ⟨rs, fs, cs.reverse ++ current, after⟩ := by
  induction cs generalizing current place with
  | nil =>
    refine ⟨place, ?_, rfl⟩
    rcases outside with rfl | rfl <;> exact ⟨by decide, by decide⟩
  | cons c cs ih =>
    rw [List.any_cons, Bool.or_eq_false_iff] at h
    obtain ⟨after, canEnd, run⟩ := @ih (c :: current) .plain h.2 (.inr rfl)
    refine ⟨after, canEnd, ?_⟩
    rw [List.foldlM_cons, step_plain h.1 outside]
    change cs.foldlM Reader.step _ = _
    rw [run]
    simp

/-- Between quotes two quotes stand for one, and all else for itself. -/
theorem run_doubled (cs : List Char) :
    (Record.doubled cs).foldlM Reader.step ⟨rs, fs, current, .quoted⟩ =
      some ⟨rs, fs, cs.reverse ++ current, .quoted⟩ := by
  induction cs generalizing current with
  | nil => rfl
  | cons c cs ih =>
    have reversed : (c :: cs).reverse ++ current = cs.reverse ++ (c :: current) := by simp
    rw [Record.doubled_cons, reversed, List.foldlM_append, ← ih]
    by_cases quote : c = '"'
    · subst quote
      rfl
    · simp [quote, Reader.step, Reader.push]

theorem run_field (text : String) :
    ∃ after, after.CanEnd ∧
      (Record.field text).toList.foldlM Reader.step ⟨rs, fs, [], .fresh⟩ =
        some ⟨rs, fs, text.toList.reverse, after⟩ := by
  unfold Record.field
  by_cases needed : text.toList.any Record.needsQuotes = true
  · refine ⟨.closing, ⟨by decide, by decide⟩, ?_⟩
    rw [if_pos needed, String.toList_ofList, List.foldlM_append, List.foldlM_cons]
    have opened : Reader.step ⟨rs, fs, [], .fresh⟩ '"' = some ⟨rs, fs, [], .quoted⟩ := rfl
    rw [opened]
    change ((Record.doubled text.toList).foldlM _ _ >>= _) = _
    rw [run_doubled, List.append_nil]
    rfl
  · rw [if_neg needed]
    have run := @run_plain rs fs [] .fresh _ (Bool.eq_false_iff.mpr needed) (.inl rfl)
    rwa [List.append_nil] at run

/-! ## Records -/

theorem run_line {fields : List String} (filled : fields ≠ []) :
    ((Record.line fields).toList ++ ['\n']).foldlM Reader.step ⟨rs, fs, [], .fresh⟩ =
      some ⟨(fs.reverse ++ fields) :: rs, [], [], .fresh⟩ := by
  induction fields generalizing fs with
  | nil => exact absurd rfl filled
  | cons f rest ih =>
    obtain ⟨after, canEnd, run⟩ := @run_field rs fs f
    cases rest with
    | nil =>
      rw [Record.line_singleton, List.foldlM_append, run]
      change ['\n'].foldlM Reader.step _ = _
      rw [List.foldlM_cons, step_lineFeed canEnd]
      simp
    | cons g rest =>
      have written : (Record.line (f :: g :: rest)).toList ++ ['\n'] =
          (Record.field f).toList ++ ',' :: ((Record.line (g :: rest)).toList ++ ['\n']) := by
        rw [Record.line_cons_cons]
        simp
      rw [written, List.foldlM_append, run]
      change (',' :: _).foldlM Reader.step _ = _
      rw [List.foldlM_cons, step_comma canEnd]
      change (_ ++ ['\n']).foldlM Reader.step _ = _
      rw [ih (List.cons_ne_nil _ _)]
      simp

theorem run_lines {rows : List (List String)} (filled : ∀ row ∈ rows, row ≠ []) :
    ((rows.map Record.line).flatMap fun line => line.toList ++ ['\n']).foldlM Reader.step
        ⟨rs, [], [], .fresh⟩ = some ⟨rows.reverse ++ rs, [], [], .fresh⟩ := by
  induction rows generalizing rs with
  | nil => rfl
  | cons row rows ih =>
    rw [List.map_cons, List.flatMap_cons, List.foldlM_append,
      run_line (filled row List.mem_cons_self)]
    change List.foldlM Reader.step _ _ = _
    rw [ih fun row listed => filled row (List.mem_cons_of_mem _ listed)]
    simp

end

/-- Records are read back from the lines that were written for them. -/
theorem read?_unlines {rows : List (List String)} (filled : ∀ row ∈ rows, row ≠ []) :
    read? (unlines (rows.map Record.line)) = some rows := by
  rw [read?, toList_unlines, Reader.start, run_lines filled]
  simp [Reader.finish]

end WinFloor.Text.Table
