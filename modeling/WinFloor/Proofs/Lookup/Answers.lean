import WinFloor.Lookup
import WinFloor.Proofs.Text.Table

/-!
Looking functions up in bulk, told line by line. A line is what stands between two line feeds of the
input; it asks for a function (`query?`), is passed over with a warning (`trouble?`), or is blank or
a comment (`IsQuiet`). Each query has its own record in the output, in the order of the lines, and
each trouble its own warning (`run_answers`).
-/
namespace WinFloor.Lookup

/-- The octets between the line feeds of the input. -/
def pieces (input : Octets) : List (List UInt8) := input.toList.splitOn lineFeed

/-- The module and the symbol that a line asks for. -/
def query? (line : List UInt8) : Option (String × String) :=
  (Text.Utf8.strict? line).bind fun text =>
    match Line.read text with
    | .query moduleName symbol => some (moduleName, symbol)
    | .skip | .malformed => none

/-- Why a line is passed over. -/
def trouble? (line : List UInt8) : Option Trouble :=
  match Text.Utf8.strict? line with
  | none => some .notUtf8
  | some text => if Line.read text = .malformed then some .malformed else none

/-- The line is blank or a comment. -/
def IsQuiet (line : List UInt8) : Prop := (Text.Utf8.strict? line).map Line.read = some .skip

instance (line : List UInt8) : Decidable (IsQuiet line) :=
  inferInstanceAs (Decidable (_ = _))

theorem query?_of_quiet {line : List UInt8} (quiet : IsQuiet line) : query? line = none := by
  obtain ⟨text, read, skipped⟩ := Option.map_eq_some_iff.mp quiet
  rw [query?, read, Option.bind_some, skipped]

theorem trouble?_of_quiet {line : List UInt8} (quiet : IsQuiet line) : trouble? line = none := by
  obtain ⟨text, read, skipped⟩ := Option.map_eq_some_iff.mp quiet
  simp [trouble?, read, skipped]

theorem quiet_nil : IsQuiet [] := by decide +kernel

/-! ## Lines -/

/-- Behind the last line feed there is one more piece, which is no line if it is empty. -/
theorem linesAfter_eq (done : List (List UInt8)) (line rest : List UInt8) :
    ∃ last, (last = [] ∨ last = [[]]) ∧
      done.reverse ++ rest.splitOnPPrepend (· == lineFeed) line =
        linesAfter done line rest ++ last := by
  induction rest generalizing done line with
  | nil =>
    rw [List.splitOnPPrepend_nil, linesAfter]
    cases line with
    | nil => exact ⟨[[]], .inr rfl, rfl⟩
    | cons b line => exact ⟨[], .inl rfl, by simp⟩
  | cons b rest ih =>
    rw [linesAfter]
    by_cases ends : b = lineFeed
    · obtain ⟨last, empty, split⟩ := ih (line.reverse :: done) []
      refine ⟨last, empty, ?_⟩
      rw [if_pos ends, ← split, List.splitOnPPrepend_cons_pos (by simpa using ends),
        List.splitOnPPrepend_nil_right]
      simp
    · obtain ⟨last, empty, split⟩ := ih done (b :: line)
      refine ⟨last, empty, ?_⟩
      rw [if_neg ends, ← split, List.splitOnPPrepend_cons_neg (by simpa using ends)]

theorem pieces_eq (input : Octets) :
    ∃ last, (last = [] ∨ last = [[]]) ∧ pieces input = lines input ++ last := by
  obtain ⟨last, empty, split⟩ := linesAfter_eq [] [] input.toList
  refine ⟨last, empty, ?_⟩
  rw [pieces, lines, ← split, List.splitOn_eq_splitOnP, List.splitOnPPrepend_nil_right]
  rfl

theorem filterMap_pieces (f : List UInt8 → Option α) (input : Octets) (nothing : f [] = none) :
    (pieces input).filterMap f = (lines input).filterMap f := by
  obtain ⟨last, rfl | rfl, split⟩ := pieces_eq input
  · rw [split, List.append_nil]
  · rw [split, List.filterMap_append]
    simp [nothing]

theorem filterMap_zipIdx_pieces (f : List UInt8 → Nat → Option α) (input : Octets)
    (nothing : ∀ n, f [] n = none) :
    ((pieces input).zipIdx 1).filterMap (fun (line, n) => f line n) =
      ((lines input).zipIdx 1).filterMap fun (line, n) => f line n := by
  obtain ⟨last, rfl | rfl, split⟩ := pieces_eq input
  · rw [split, List.append_nil]
  · rw [split, List.zipIdx_append, List.filterMap_append]
    simp [nothing]

/-! ## The run -/

/-- The record that answers a query. -/
def answer (m : Matcher) (asked : String × String) : List String :=
  recordOf m asked.1 asked.2

/-- A line comes to an answer, to a trouble or to nothing. -/
theorem outcome_eq (m : Matcher) (line : List UInt8) :
    outcome m line =
      match query? line, trouble? line with
      | some asked, _ => .record (answer m asked)
      | none, some t => .trouble t
      | none, none => .nothing := by
  unfold outcome query? trouble?
  cases Text.Utf8.strict? line with
  | none => rfl
  | some text =>
    cases read : Line.read text with
    | skip => simp [read]
    | malformed => simp [read]
    | query moduleName symbol =>
      simp only [Option.bind_some, read]
      rfl

theorem trouble?_of_query {line : List UInt8} {asked : String × String}
    (h : query? line = some asked) : trouble? line = none := by
  unfold query? at h
  unfold trouble?
  cases decoded : Text.Utf8.strict? line with
  | none => simp [decoded] at h
  | some text =>
    cases read : Line.read text with
    | skip => simp [read]
    | malformed => simp [decoded, read] at h
    | query moduleName symbol => simp [read]

theorem records_run (m : Matcher) (input : Octets) :
    ((lines input).map (outcome m)).filterMap (fun
      | .record fields => some (Text.Record.line fields)
      | _ => none) =
      ((pieces input).filterMap query?).map fun asked => Text.Record.line (answer m asked) := by
  rw [filterMap_pieces query? input (query?_of_quiet quiet_nil), List.filterMap_map,
    List.map_filterMap]
  congr 1
  funext line
  simp only [Function.comp_apply, outcome_eq]
  cases query? line with
  | some asked => rfl
  | none => cases trouble? line <;> rfl

/-- The warning for a line of the given number. -/
def warning? (line : List UInt8) (n : Nat) : Option Warning :=
  (trouble? line).map fun t => ⟨n, t⟩

theorem warnings_run (m : Matcher) (input : Octets) :
    (run m input).warnings =
      ((pieces input).zipIdx 1).filterMap fun (line, n) => warning? line n := by
  have nothing (n : Nat) : warning? [] n = none := by
    rw [warning?, trouble?_of_quiet quiet_nil]
    rfl
  rw [filterMap_zipIdx_pieces warning? input nothing]
  simp only [run]
  rw [List.zipIdx_map, List.filterMap_map]
  congr 1
  funext ⟨line, n⟩
  simp only [Function.comp_apply, Prod.map, outcome_eq, warning?]
  cases asked : query? line with
  | some asked' =>
    rw [trouble?_of_query asked]
    rfl
  | none => cases trouble? line <;> rfl

theorem output_run (m : Matcher) (input : Octets) :
    (run m input).output =
      Text.unlines (heading :: ((pieces input).filterMap query?).map fun asked =>
        Text.Record.line (answer m asked)) := by
  rw [← records_run]
  rfl

theorem lookedUp_run (m : Matcher) (input : Octets) :
    (run m input).lookedUp = ((pieces input).filterMap query?).length := by
  have counted : (run m input).lookedUp = _ := congrArg List.length (records_run m input)
  rw [counted, List.length_map]

theorem troubles_run (m : Matcher) (input : Octets) :
    (run m input).warnings.map Warning.trouble = (pieces input).filterMap trouble? := by
  have numberless : (fun (line, n) => (warning? line n).map Warning.trouble) =
      (fun line => trouble? line) ∘ (Prod.fst : List UInt8 × Nat → List UInt8) := by
    funext ⟨line, n⟩
    simp only [warning?, Option.map_map, Function.comp_apply]
    exact Option.map_id_apply
  rw [warnings_run, List.map_filterMap, ← List.zipIdx_map_fst 1 (pieces input),
    List.filterMap_map, ← numberless, List.zipIdx_map_fst]

theorem skipped_run (m : Matcher) (input : Octets) :
    (run m input).skipped = (pieces input).countP fun line => (trouble? line).isSome := by
  rw [← List.length_filterMap_eq_countP, ← troubles_run m, List.length_map]
  rfl

/-! ## Blank lines and comments -/

/-- The input without its blank lines and comments. -/
def withoutQuiet (input : Octets) : Octets :=
  ([lineFeed].intercalate ((pieces input).filter (¬IsQuiet ·))).toArray

/-- Without them there are no other lines, unless nothing at all is left. -/
theorem filterMap_withoutQuiet (f : List UInt8 → Option α) (input : Octets)
    (nothing : ∀ line, IsQuiet line → f line = none) :
    (pieces (withoutQuiet input)).filterMap f = (pieces input).filterMap f := by
  have kept : ((pieces input).filter (¬IsQuiet ·)).filterMap f = (pieces input).filterMap f := by
    rw [List.filterMap_filter]
    congr 1
    funext line
    by_cases quiet : IsQuiet line
    · simp [quiet, nothing line quiet]
    · simp [quiet]
  rw [← kept, pieces, withoutQuiet]
  by_cases left : (pieces input).filter (¬IsQuiet ·) = []
  · rw [left]
    simp [nothing [] quiet_nil]
  · have unbroken : ∀ line ∈ (pieces input).filter (¬IsQuiet ·), lineFeed ∉ line :=
      fun line listed member =>
        (Text.mem_of_mem_splitOn (List.mem_filter.mp listed).1 member).2 rfl
    rw [List.toList_toArray, List.splitOn_intercalate _ unbroken left]

/-- The output has one record for each line that asks for a function, and there is one warning, with
the number of the line, for each that is passed over. Blank lines and comments count for nothing but
the numbers. -/
theorem run_answers (m : Matcher) (input : Octets) :
    let r := run m input
    let quieter := run m (withoutQuiet input)
    Text.Table.read? r.output =
      some (["module", "symbol", "minBuild", "reason"] ::
        ((pieces input).filterMap query?).map fun (moduleName, symbol) =>
          let found := m.resolve moduleName symbol
          [moduleName, symbol, toString found.build, found.reason moduleName symbol]) ∧
    r.lookedUp = (pieces input).countP (fun line => (query? line).isSome) ∧
    r.skipped = (pieces input).countP (fun line => (trouble? line).isSome) ∧
    r.warnings.map (fun w => (w.line, w.trouble.message)) =
      ((pieces input).zipIdx 1).filterMap (fun (line, n) =>
        (trouble? line).map fun t => (n, t.message)) ∧
    quieter.output = r.output ∧ quieter.lookedUp = r.lookedUp ∧ quieter.skipped = r.skipped ∧
    quieter.warnings.map Warning.trouble = r.warnings.map Warning.trouble := by
  intro r quieter
  have queries : (pieces (withoutQuiet input)).filterMap query? = (pieces input).filterMap query? :=
    filterMap_withoutQuiet query? input fun _ => query?_of_quiet
  have troubles :
      (pieces (withoutQuiet input)).filterMap trouble? = (pieces input).filterMap trouble? :=
    filterMap_withoutQuiet trouble? input fun _ => trouble?_of_quiet
  refine ⟨?_, ?_, skipped_run m input, ?_, ?_, ?_, ?_, ?_⟩
  · have written : r.output = Text.unlines
        ((["module", "symbol", "minBuild", "reason"] ::
          ((pieces input).filterMap query?).map (answer m)).map Text.Record.line) := by
      have first : heading = Text.Record.line ["module", "symbol", "minBuild", "reason"] := by
        decide +kernel
      rw [output_run, List.map_cons, List.map_map, first]
      rfl
    rw [written, Text.Table.read?_unlines]
    · rfl
    · intro row listed
      rcases List.mem_cons.mp listed with rfl | later
      · exact List.cons_ne_nil _ _
      · obtain ⟨asked, -, rfl⟩ := List.mem_map.mp later
        exact List.cons_ne_nil _ _
  · rw [lookedUp_run, List.length_filterMap_eq_countP]
  · rw [warnings_run, List.map_filterMap]
    congr 1
    funext ⟨line, n⟩
    exact Option.map_map ..
  · rw [output_run, output_run, queries]
  · rw [lookedUp_run, lookedUp_run, queries]
  · rw [skipped_run, skipped_run, ← List.length_filterMap_eq_countP, troubles,
      List.length_filterMap_eq_countP]
  · rw [troubles_run, troubles_run, troubles]

end WinFloor.Lookup
