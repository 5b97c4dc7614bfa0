import WinFloor.Lookup
import WinFloor.Proofs.Text.Record

/-!
Lines that ask for a function, with white space around their fields. Blanks at its ends are trimmed
with the line, and those around the comma are either dropped by the reader of records or trimmed
with the fields (`split?_padded`). So what is read are the module and the symbol that were written,
exactly if these are texts that trimming leaves and the line is not taken for a comment
(`read_line_iff`).
-/
namespace WinFloor

namespace Text.Record

/-- Nothing is trimmed off a field that was written for a text that needs no trimming. -/
theorem trimmed_field {text : String} (solid : trimmed text.toList = text.toList) :
    trimmed (field text).toList = (field text).toList := by
  unfold field
  split
  next =>
    have quote : isBlank '"' = false := by decide
    rw [String.toList_ofList, trimmed_eq_self_iff]
    refine ⟨?_, ?_⟩
    · rintro c ⟨⟩
      exact quote
    · rw [List.getLast?_append_of_ne_nil _ (List.cons_ne_nil _ _)]
      rintro c ⟨⟩
      exact quote
  next => exact solid

theorem field_ne_nil {text : String} (filled : text ≠ "") : (field text).toList ≠ [] := by
  unfold field
  split
  next => simp
  next => simpa using filled

theorem any_needsQuotes_iff {cs : List Char} :
    cs.any needsQuotes = true ↔ ∃ c ∈ cs, c = ',' ∨ c = '"' ∨ c = '\n' ∨ c = '\r' := by
  simp [needsQuotes, or_assoc]

theorem head?_field (text : String) :
    (field text).toList.head? =
      if text.toList.any needsQuotes then some '"' else text.toList.head? := by
  unfold field
  split
  next => simp
  next => rfl

/-- With blanks around the comma, two fields are split into texts that are the same when trimmed. -/
theorem split?_padded {behind before : List Char} (back : AllBlank behind) (front : AllBlank before)
    (first second : String) :
    ∃ kept : List Char, AllBlank kept ∧
      split? (String.ofList
        ((field first).toList ++ (behind ++ ',' :: before) ++ (field second).toList)) =
          some [String.ofList (first.toList ++ behind), String.ofList (kept ++ second.toList)] := by
  obtain ⟨mode, outside, run⟩ := @foldl_field [] [] .nil first
  rw [ite_self, List.append_nil] at run
  obtain ⟨after, outside', run'⟩ := @foldl_blank [] first.toList.reverse behind back mode outside
  have ended : (behind.reverse ++ first.toList.reverse).reverse = first.toList ++ behind := by simp
  have padding := @foldl_unmarked [first.toList ++ behind] [] before (unmarked_of_blank front)
  have blank : AllBlank (before.reverse ++ []) := by
    rw [List.append_nil]
    exact fun c listed => front c (List.mem_reverse.mp listed)
  obtain ⟨last, outside'', run''⟩ := @foldl_field [first.toList ++ behind] _ blank second
  refine ⟨if second.toList.any needsQuotes then [] else before, ?_, ?_⟩
  · split
    · exact .nil
    · exact front
  · rw [split?, String.toList_ofList, Reader.start, List.foldl_append, List.foldl_append,
      List.foldl_append, run, run', List.foldl_cons, step_comma outside', ended, padding, run'']
    change (if last = .quoted then none else some _) = _
    rw [if_neg outside'']
    split <;> simp [Reader.endField]

end Text.Record

namespace Lookup

open Text

/-- White space around the fields of a line. -/
structure Padding where
  before : String
  behindModule : String
  beforeSymbol : String
  behind : String
  blank : ∀ text ∈ [before, behindModule, beforeSymbol, behind], AllBlank text.toList

/-- The line that asks for a function, with the padding around its fields. -/
def Padding.line (p : Padding) (moduleName symbol : String) : String :=
  p.before ++ Record.field moduleName ++ p.behindModule ++ "," ++ p.beforeSymbol ++
    Record.field symbol ++ p.behind

/-- What a line asks for is trimmed, and not empty. -/
theorem Line.trimmed_of_query {text moduleName symbol : String}
    (read : Line.read text = .query moduleName symbol) :
    moduleName ≠ "" ∧ symbol ≠ "" ∧ trim moduleName = moduleName ∧ trim symbol = symbol := by
  unfold Line.read at read
  dsimp only at read
  split at read
  next => cases read
  split at read
  next first second _ =>
    split at read
    next => cases read
    next filled =>
      cases read
      exact ⟨(not_or.mp filled).1, (not_or.mp filled).2, trim_trim first, trim_trim second⟩
  next => cases read

namespace Padding

variable (p : Padding) {moduleName symbol : String}

/-- What is left of the line when it is trimmed. -/
def core (moduleName symbol : String) : List Char :=
  (Record.field moduleName).toList ++ (p.behindModule.toList ++ ',' :: p.beforeSymbol.toList) ++
    (Record.field symbol).toList

theorem toList_line (moduleName symbol : String) :
    (p.line moduleName symbol).toList =
      p.before.toList ++ p.core moduleName symbol ++ p.behind.toList := by
  simp [line, core]

section
variable (named : moduleName ≠ "") (named' : symbol ≠ "") (solid : trim moduleName = moduleName)
  (solid' : trim symbol = symbol)
include named named' solid solid'

theorem trim_line : trim (p.line moduleName symbol) = String.ofList (p.core moduleName symbol) := by
  have front : trimmed moduleName.toList = moduleName.toList := by rw [← toList_trim, solid]
  have back : trimmed symbol.toList = symbol.toList := by rw [← toList_trim, solid']
  have whole : trimmed (p.core moduleName symbol) = p.core moduleName symbol :=
    trimmed_between _ (Record.field_ne_nil named) (Record.field_ne_nil named')
      (Record.trimmed_field front) (Record.trimmed_field back)
  rw [trim, toList_line, trimmed_padded _ (p.blank _ (by simp)) (p.blank _ (by simp)), whole]

/-- The line is a comment if a `#` stands first in it, and else it asks for the two texts. -/
theorem read_line : Line.read (p.line moduleName symbol) =
    if (Record.field moduleName).toList.head? = some '#' then .skip
    else .query moduleName symbol := by
  have filled := Record.field_ne_nil named
  have first : (p.core moduleName symbol).head? = (Record.field moduleName).toList.head? := by
    rw [core, List.append_assoc, List.head?_append_of_ne_nil _ filled]
  have filled' : String.ofList (p.core moduleName symbol) ≠ "" := by simp [core]
  have behindModule : AllBlank p.behindModule.toList := p.blank _ (by simp)
  obtain ⟨kept, blank, split⟩ :=
    Record.split?_padded behindModule (p.blank p.beforeSymbol (by simp)) moduleName symbol
  have left : trim (String.ofList (moduleName.toList ++ p.behindModule.toList)) = moduleName := by
    rw [trim, String.toList_ofList, trimmed_append_blank _ behindModule]
    exact solid
  have right : trim (String.ofList (kept ++ symbol.toList)) = symbol := by
    rw [trim, String.toList_ofList, trimmed_blank_append _ blank]
    exact solid'
  rw [Line.read, trim_line p named named' solid solid']
  simp only [String.toList_ofList, first, filled', false_or]
  split
  · rfl
  · rw [← core] at split
    simp only [split, left, right, named, named', or_self, if_false]

end

/-- A line asks for the module and the symbol that it was written for exactly if neither is empty,
both are trimmed, and the module does not begin with a `#` that no quote stands before. -/
theorem read_line_iff (moduleName symbol : String) :
    Line.read (p.line moduleName symbol) = .query moduleName symbol ↔
      moduleName ≠ "" ∧ symbol ≠ "" ∧ trim moduleName = moduleName ∧ trim symbol = symbol ∧
        (moduleName.toList.head? = some '#' →
          ∃ c ∈ moduleName.toList, c = ',' ∨ c = '"' ∨ c = '\n' ∨ c = '\r') := by
  rw [← Record.any_needsQuotes_iff]
  constructor
  · intro read
    obtain ⟨named, named', solid, solid'⟩ := Line.trimmed_of_query read
    refine ⟨named, named', solid, solid', fun hash => ?_⟩
    by_contra unquoted
    rw [p.read_line named named' solid solid', Record.head?_field, if_neg unquoted,
      if_pos hash] at read
    cases read
  · rintro ⟨named, named', solid, solid', quoted⟩
    rw [p.read_line named named' solid solid', if_neg]
    intro hash
    rw [Record.head?_field] at hash
    split at hash
    next => cases hash
    next unquoted => exact unquoted (quoted hash)

/-- A tab and a blank, no-break spaces, an ideographic space, and a carriage return. -/
def mixed : Padding where
  before := "\t "
  behindModule := "\u00a0\u00a0"
  beforeSymbol := "\u3000"
  behind := " \r"
  blank := by decide +kernel

theorem read_line_mixed :
    mixed.line "#a\"b" "Sleep" = "\t \"#a\"\"b\"\u00a0\u00a0,\u3000Sleep \r" ∧
      Line.read "\t \"#a\"\"b\"\u00a0\u00a0,\u3000Sleep \r" = .query "#a\"b" "Sleep" := by
  have written : mixed.line "#a\"b" "Sleep" = "\t \"#a\"\"b\"\u00a0\u00a0,\u3000Sleep \r" := by
    decide +kernel
  have solid : trim "#a\"b" = "#a\"b" := by decide +kernel
  have solid' : trim "Sleep" = "Sleep" := by decide +kernel
  have quoted : '"' ∈ "#a\"b".toList := by decide
  have read := (mixed.read_line_iff "#a\"b" "Sleep").mpr
    ⟨by decide, by decide, solid, solid', fun _ => ⟨_, quoted, .inr (.inl rfl)⟩⟩
  exact ⟨written, written ▸ read⟩

end Padding

end Lookup

end WinFloor
