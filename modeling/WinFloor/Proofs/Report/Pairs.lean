import WinFloor.Proofs.Report.Table

/-!
Reports in the style of keys and values: ten lines for each assessment, and an empty line between
one assessment and the next. Nothing in them is escaped, so a report is read as what was written
exactly if no path, architecture or reason holds a line feed (`readPairs?_written_text`). Otherwise
one assessment can pass for two (`readPairs?_written_forged`).
-/
namespace WinFloor.Report

/-- The key and the value of a line, told apart at the first equals sign. -/
def pair? (line : String) : Option (String × String) :=
  match line.toList.dropWhile (· ≠ '=') with
  | [] => none
  | _ :: value => some (String.ofList (line.toList.takeWhile (· ≠ '=')), String.ofList value)

/-- Blocks of lines that have an empty line between them. -/
def blocks (lines : List String) : List (List String) :=
  if lines = [] then [] else lines.splitOn ""

/-- The pairs of a report, block by block. Every line ends in a line feed. -/
def readPairs? (text : String) : Option (List (List (String × String))) :=
  let pieces := (Text.lines text).map String.ofList
  if pieces.getLast? = some "" then (blocks pieces.dropLast).mapM fun block => block.mapM pair?
  else none

/-- The fields of an assessment with their keys. -/
def pairs (a : Assessment) : List (String × String) :=
  ["binary_path", "bitness", "architecture", "import_count", "delay_import_count", "mapped_count",
    "fallback_count", "required_build", "required_reason", "signal"].zip (row a)

theorem mapM_eq_some_iff {read : α → Option β} {xs : List α} {ys : List β} :
    xs.mapM read = some ys ↔ xs.map read = ys.map some := by
  induction xs generalizing ys with
  | nil => cases ys <;> simp
  | cons x xs ih =>
    rw [List.mapM_cons, List.map_cons]
    cases first : read x with
    | none => cases ys <;> simp
    | some y =>
      cases ys with
      | nil => simp [Option.bind_eq_some_iff]
      | cons y' ys => simp [Option.bind_eq_some_iff, ← ih, and_comm]

/-! ## Lines -/

theorem pair?_line {key : String} (plain : '=' ∉ key.toList) (value : String) :
    pair? (key ++ "=" ++ value) = some (key, value) := by
  have before : ∀ c ∈ key.toList, decide (c ≠ '=') = true := fun c member =>
    decide_eq_true fun same => plain (same ▸ member)
  have text : (key ++ "=" ++ value).toList = key.toList ++ '=' :: value.toList := by simp
  rw [pair?, text, List.dropWhile_append_of_pos before, List.takeWhile_append_of_pos before]
  simp

theorem pairs_eq (a : Assessment) : (fields a).map (fun f => (f.1, f.2.plain)) = pairs a := by
  rw [pairs, ← map_plain_fields]
  exact List.zip_map'.symm

theorem key_plain : ∀ key ∈ keys, '=' ∉ key.toList ∧ '\n' ∉ key.toList := by
  decide +kernel

theorem textLines_eq (a : Assessment) :
    textLines a = (pairs a).map fun pair => pair.1 ++ "=" ++ pair.2 := by
  rw [← pairs_eq, List.map_map]
  rfl

theorem key_of_pairs {a : Assessment} {pair : String × String} (h : pair ∈ pairs a) :
    pair.1 ∈ keys := (List.of_mem_zip h).1

theorem value_of_pairs {a : Assessment} {pair : String × String} (h : pair ∈ pairs a) :
    pair.2 ∈ row a := (List.of_mem_zip h).2

theorem exists_of_value {a : Assessment} {value : String} (h : value ∈ row a) :
    ∃ key, (key, value) ∈ pairs a := by
  have all : (pairs a).map Prod.snd = row a := List.map_snd_zip (Nat.le_refl 10)
  obtain ⟨⟨key, _⟩, listed, rfl⟩ := List.mem_map.mp (all ▸ h)
  exact ⟨key, listed⟩

theorem mapM_textLines (a : Assessment) : (textLines a).mapM pair? = some (pairs a) := by
  rw [mapM_eq_some_iff, textLines_eq, List.map_map]
  refine List.map_congr_left fun pair listed => ?_
  rw [Function.comp_apply, pair?_line (key_plain _ (key_of_pairs listed)).1]

theorem digits_unbroken (n : Nat) : '\n' ∉ Nat.toDigits 10 n := fun member =>
  absurd (Nat.isDigit_of_mem_toDigits (by decide) (by decide) member) (by decide)

theorem row_unbroken (a : Assessment) :
    (∀ value ∈ row a, '\n' ∉ value.toList) ↔
      '\n' ∉ a.path.toList ∧ '\n' ∉ a.architecture.toList ∧ '\n' ∉ a.reason.toList := by
  cases signal : a.signal <;> simp [row, signal, digits_unbroken]

theorem textLines_unbroken {a : Assessment}
    (unbroken : ∀ value ∈ row a, '\n' ∉ value.toList) :
    ∀ line ∈ textLines a, '\n' ∉ line.toList := by
  intro line listed
  rw [textLines_eq] at listed
  obtain ⟨pair, among, rfl⟩ := List.mem_map.mp listed
  have key := (key_plain _ (key_of_pairs among)).2
  have value := unbroken _ (value_of_pairs among)
  simp [key, value]

theorem textLines_filled (a : Assessment) : textLines a ≠ [] ∧ "" ∉ textLines a := by
  refine ⟨List.cons_ne_nil _ _, fun listed => ?_⟩
  rw [textLines_eq] at listed
  obtain ⟨pair, -, empty⟩ := List.mem_map.mp listed
  have characters := congrArg String.toList empty
  simp at characters

/-! ## Blocks -/

theorem mem_separated {blocks : List (List String)} {line : String}
    (h : line ∈ separated blocks) : line = "" ∨ ∃ block ∈ blocks, line ∈ block := by
  induction blocks with
  | nil => exact absurd h List.not_mem_nil
  | cons block blocks ih =>
    cases blocks with
    | nil =>
      rw [separated, List.intercalate_singleton] at h
      exact .inr ⟨block, List.mem_cons_self, h⟩
    | cons next blocks =>
      rw [separated, List.intercalate_cons_cons, List.mem_append, List.mem_append,
        List.mem_singleton] at h
      rcases h with (first | between) | later
      · exact .inr ⟨block, List.mem_cons_self, first⟩
      · exact .inl between
      · exact (ih later).imp_right fun ⟨block, listed, inside⟩ =>
          ⟨block, List.mem_cons_of_mem _ listed, inside⟩

theorem blocks_separated {bs : List (List String)} (filled : ∀ b ∈ bs, b ≠ [] ∧ "" ∉ b) :
    blocks (separated bs) = bs := by
  cases bs with
  | nil => rfl
  | cons b bs =>
    have split : (separated (b :: bs)).splitOn "" = b :: bs :=
      List.splitOn_intercalate "" (fun b listed => (filled b listed).2) (List.cons_ne_nil _ _)
    have something : separated (b :: bs) ≠ [] := by
      intro nothing
      rw [nothing, List.splitOn_nil] at split
      exact (filled b List.mem_cons_self).1 (List.cons.inj split).1.symm
    rw [blocks, if_neg something, split]

theorem mem_of_mem_blocks {lines block : List String} {line : String} (h : block ∈ blocks lines)
    (inside : line ∈ block) : line ∈ lines := by
  unfold blocks at h
  split at h
  next => exact absurd h List.not_mem_nil
  next => exact (Text.mem_of_mem_splitOn h inside).1

/-! ## Reports -/

theorem exists_of_mapM {read : α → Option β} {xs : List α} {ys : List β}
    (h : xs.mapM read = some ys) {y : β} (listed : y ∈ ys) : ∃ x ∈ xs, read x = some y := by
  rw [mapM_eq_some_iff] at h
  exact List.mem_map.mp (h ▸ List.mem_map_of_mem listed)

theorem mem_of_pair? {line : String} {pair : String × String} (h : pair? line = some pair)
    {c : Char} (member : c ∈ pair.2.toList) : c ∈ line.toList := by
  unfold pair? at h
  split at h
  next => exact absurd h (Option.some_ne_none _).symm
  next value split =>
    rw [← Option.some.inj h, String.toList_ofList] at member
    exact (List.dropWhile_subset _) (split ▸ List.mem_cons_of_mem _ member)

/-- No value that is read holds a line feed. -/
theorem readPairs?_unbroken {text : String} {rs : List (List (String × String))}
    (h : readPairs? text = some rs) : ∀ r ∈ rs, ∀ pair ∈ r, '\n' ∉ pair.2.toList := by
  intro r listed pair inside member
  simp only [readPairs?] at h
  split at h
  next =>
    obtain ⟨block, listed, read⟩ := exists_of_mapM h listed
    obtain ⟨line, inside, read⟩ := exists_of_mapM read inside
    obtain ⟨cs, between, rfl⟩ :=
      List.mem_map.mp (List.dropLast_subset _ (mem_of_mem_blocks listed inside))
    have inLine := mem_of_pair? read member
    rw [String.toList_ofList] at inLine
    exact (Text.mem_of_mem_splitOn between inLine).2 rfl
  next => exact absurd h (Option.some_ne_none _).symm

theorem written_text (wantsColor onTerminal verbose : Bool) (assessments : List Assessment) :
    written ⟨.text, wantsColor, onTerminal, verbose⟩ assessments =
      Text.unlines (separated (assessments.map textLines)) :=
  rfl

theorem readPairs?_of_unbroken {wantsColor onTerminal verbose : Bool}
    {assessments : List Assessment} (unbroken : ∀ a ∈ assessments, ∀ value ∈ row a,
      '\n' ∉ value.toList) :
    readPairs? (written ⟨.text, wantsColor, onTerminal, verbose⟩ assessments) =
      some (assessments.map pairs) := by
  have lines : ∀ line ∈ separated (assessments.map textLines), '\n' ∉ line.toList := by
    intro line listed
    rcases mem_separated listed with rfl | ⟨block, inside, listed⟩
    · exact List.not_mem_nil
    · obtain ⟨a, among, rfl⟩ := List.mem_map.mp inside
      exact textLines_unbroken (unbroken a among) line listed
  have filled : ∀ block ∈ assessments.map textLines, block ≠ [] ∧ "" ∉ block := by
    intro block listed
    obtain ⟨a, -, rfl⟩ := List.mem_map.mp listed
    exact textLines_filled a
  simp only [readPairs?]
  rw [written_text, Text.lines_unlines_unbroken lines, List.getLast?_concat, if_pos rfl,
    List.dropLast_concat, blocks_separated filled, mapM_eq_some_iff, List.map_map, List.map_map]
  exact List.map_congr_left fun a _ => mapM_textLines a

/-- The report has ten lines for each assessment, and they tell its fields, unless a field has lines
of its own. -/
theorem readPairs?_written_text (wantsColor onTerminal verbose : Bool)
    (assessments : List Assessment) :
    readPairs? (written ⟨.text, wantsColor, onTerminal, verbose⟩ assessments) =
        some (assessments.map pairs) ↔
      ∀ a ∈ assessments,
        '\n' ∉ a.path.toList ∧ '\n' ∉ a.architecture.toList ∧ '\n' ∉ a.reason.toList := by
  constructor
  · intro read a listed
    refine (row_unbroken a).mp fun value inRow => ?_
    obtain ⟨key, inPairs⟩ := exists_of_value inRow
    exact readPairs?_unbroken read (pairs a) (List.mem_map_of_mem listed) (key, value) inPairs
  · intro unbroken
    exact readPairs?_of_unbroken fun a listed => (row_unbroken a).mpr (unbroken a listed)

/-- The path of a single binary holds all the lines of another one. -/
theorem readPairs?_written_forged :
    let path := "a.exe\nbitness=32\n" ++ "architecture=x86\n" ++ "import_count=0\n" ++
      "delay_import_count=0\n" ++ "mapped_count=0\n" ++ "fallback_count=0\n" ++
      "required_build=0\n" ++ "required_reason=none\n" ++ "signal=header\n\n" ++
      "binary_path=b.exe"
    let reason := "kernel32.dll!Sleep (windows6.1)"
    readPairs? (written ⟨.text, false, false, false⟩
        [⟨path, 64, "x86_64", 1, 0, 1, 0, 7600, reason, .api⟩]) =
      some [pairs ⟨"a.exe", 32, "x86", 0, 0, 0, 0, 0, "none", .header⟩,
        pairs ⟨"b.exe", 64, "x86_64", 1, 0, 1, 0, 7600, reason, .api⟩] := by
  intro path reason
  have same : written ⟨.text, false, false, false⟩
      [⟨path, 64, "x86_64", 1, 0, 1, 0, 7600, reason, .api⟩] =
      written ⟨.text, false, false, false⟩
        [⟨"a.exe", 32, "x86", 0, 0, 0, 0, 0, "none", .header⟩,
          ⟨"b.exe", 64, "x86_64", 1, 0, 1, 0, 7600, reason, .api⟩] := by
    apply String.toList_injective
    -- The texts differ in how they are put together, so their characters are compared.
    simp only [path, reason, written_text, Text.toList_unlines, separated, textLines, fields,
      Value.plain, List.map_cons, List.map_nil, List.intercalate_singleton,
      List.intercalate_cons_cons, List.flatMap_append, List.flatMap_cons, List.flatMap_nil,
      String.toList_append, String.reduceToList]
    rfl
  rw [same]
  refine readPairs?_of_unbroken fun a listed => (row_unbroken a).mpr ?_
  simp only [List.mem_cons, List.not_mem_nil, or_false] at listed
  rcases listed with rfl | rfl <;> decide

end WinFloor.Report
