import WinFloor.Proofs.Text.Record
import WinFloor.Proofs.Text.Table
import WinFloor.Report.Written

/-!
Reports in the style of a table. Whatever stands in a path, an architecture or a reason, each
assessment is one record of ten fields, both to a strict reader of the whole table and to the
lenient one that lookups split their lines with (`read?_written_csv`).
-/
namespace WinFloor.Report

/-- The ten fields of an assessment. -/
def row (a : Assessment) : List String :=
  [a.path, toString a.bits, a.architecture, toString a.symbols, toString a.delayed,
   toString a.mapped, toString a.fallbacks, toString a.build, a.reason,
   match a.signal with
   | .api => "api"
   | .header => "header"]

theorem map_plain_fields (a : Assessment) : ((fields a).map fun f => f.2.plain) = row a := by
  cases signal : a.signal <;> simp [fields, row, Value.plain, Signal.text, signal]

theorem csvLine_eq (a : Assessment) : csvLine a = Text.Record.line (row a) := by
  rw [csvLine, ← map_plain_fields]

theorem row_ne_nil (a : Assessment) : row a ≠ [] := List.cons_ne_nil _ _

theorem split?_csvLine (a : Assessment) : Text.Record.split? (csvLine a) = some (row a) := by
  rw [csvLine_eq, Text.Record.split?_line (row_ne_nil a)]

theorem written_csv (wantsColor onTerminal verbose : Bool) (assessments : List Assessment) :
    written ⟨.csv, wantsColor, onTerminal, verbose⟩ assessments =
      Text.unlines (csvHeading :: assessments.map csvLine) :=
  rfl

/-- The table has one record for its heading and one for each assessment, in their order. -/
theorem read?_written_csv (wantsColor onTerminal verbose : Bool)
    (assessments : List Assessment) :
    let text := written ⟨.csv, wantsColor, onTerminal, verbose⟩ assessments
    Text.Table.read? text =
      some (["binary_path", "bitness", "architecture", "import_count", "delay_import_count",
        "mapped_count", "fallback_count", "required_build", "required_reason", "signal"] ::
          assessments.map row) ∧
    ∃ lines : List String, text = Text.unlines (csvHeading :: lines) ∧
      lines.map Text.Record.split? = assessments.map fun a => some (row a) := by
  have rows : assessments.map csvLine = (assessments.map row).map Text.Record.line := by
    rw [List.map_map]
    exact List.map_congr_left fun a _ => csvLine_eq a
  refine ⟨?_, assessments.map csvLine, written_csv .., ?_⟩
  · have filled : ∀ fields ∈ keys :: assessments.map row, fields ≠ [] := by
      intro fields listed
      rcases List.mem_cons.mp listed with rfl | later
      · exact List.cons_ne_nil _ _
      · obtain ⟨a, -, rfl⟩ := List.mem_map.mp later
        exact row_ne_nil a
    rw [written_csv, rows, csvHeading, ← List.map_cons, Text.Table.read?_unlines filled, keys]
  · rw [List.map_map]
    refine List.map_congr_left fun a _ => ?_
    rw [Function.comp_apply, split?_csvLine]

end WinFloor.Report
