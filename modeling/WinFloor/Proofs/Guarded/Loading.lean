import WinFloor.Program
import WinFloor.Proofs.Guarded.Database
import WinFloor.Proofs.Guarded.Image
import WinFloor.Proofs.Metadata.Faults

/-!
Loading metadata with every operation guarded. Whatever octets a file has, no operation is out of
range and the only faults are defects of metadata (`catalogOf_safe`).
-/
namespace WinFloor.Guarded

open Metadata

/-! ## Databases -/

def Ending.asDefect : Ending → Ending
  | .fault f => .fault (Database.asDefect f)
  | .outOfRange => .outOfRange

def databaseParts (d : Octets) : Run Database := do
  let root ← value rootReading (.start d)
  let tables ← value tablesReading (.start root.tables)
  return { version := root.version, tables, strings := ⟨root.strings⟩, blobs := ⟨root.blobs⟩ }

def database (d : Octets) : Run Database :=
  (databaseParts d).mapError Ending.asDefect

/-! ## Catalogs -/

/-- A name without its last letter, cut before the last octet. A text is only cut between
characters. -/
def stem? (symbol : String) : Run (Option String) := do
  let d := (Text.Utf8.encode symbol).toArray
  if 1 < d.size ∧ symbol.toList.getLast?.any SymbolStem.isCharsetLetter then
    let stop ← difference d.size 1
    let taken ← slice d 0 stop
    match Text.Utf8.strict? taken.toList with
    | some stem => return some stem
    | none => throw .outOfRange
  else return none

def insert (c : Catalog) (d : Declaration) : Run Catalog := do
  let declared ← sum wordBound c.declared 1
  let symbols := d.symbol :: (← stem? d.symbol).toList
  let keys := (ModuleName.variants d.moduleName).flatMap fun m => symbols.map (Catalog.key m)
  return { entries := keys.foldl (Catalog.record · d) c.entries, declared }

def catalogOf (content : Octets) : Run Catalog := do
  let root ← locate content
  let db ← database root
  (← declarations db).foldlM insert .empty

/-! ## Soundness -/

theorem sound_databaseParts {d : Octets} (small : d.size < memoryBound) :
    Sound (databaseParts d) (Database.readParts d) := by
  apply (value_eq follows_root (ready_start small)).bind
  intro root read
  have sizes := value_holds follows_root (ready_start small) read
  have tables : root.tables.size < memoryBound := Nat.lt_trans sizes.1 (by decide)
  apply (value_eq follows_tables (ready_start tables)).bind
  intro tables _
  exact .ok _

theorem sound_database {d : Octets} (small : d.size < memoryBound) :
    Sound (database d) (Database.read d) := by
  rw [database, Database.read, sound_databaseParts small]
  cases Database.readParts d <;> rfl

theorem loaded_parts {d : Octets} (small : d.size < memoryBound) {db : Database}
    (read : Database.readParts d = .ok db) : Loaded db := by
  obtain ⟨root, first, rest⟩ := exists_of_bind_ok read
  obtain ⟨narrow, blobs⟩ := value_holds follows_root (ready_start small) first
  have room : root.tables.size < memoryBound := Nat.lt_trans narrow (by decide)
  obtain ⟨tables, second, made⟩ := exists_of_bind_ok rest
  obtain ⟨same, inside⟩ := value_holds follows_tables (ready_start room) second
  cases made
  exact ⟨⟨same ▸ narrow, inside⟩, blobs⟩

theorem loaded_read {d : Octets} (small : d.size < memoryBound) {db : Database}
    (read : Database.read d = .ok db) : Loaded db := by
  rw [Database.read] at read
  cases parts : Database.readParts d with
  | error f =>
    rw [parts] at read
    cases read
  | ok other =>
    rw [parts] at read
    cases read
    exact loaded_parts small parts

theorem encode_concat (cs : List Char) (c : Char) :
    Text.Utf8.encode (String.ofList (cs ++ [c])) =
      Text.Utf8.encode (String.ofList cs) ++ String.utf8EncodeChar c := by
  simp [Text.Utf8.encode]

/-- The letter is one octet, so what stands before it is a text again. -/
theorem stem?_concat (cs : List Char) {c : Char} (letter : SymbolStem.isCharsetLetter c = true) :
    stem? (String.ofList (cs ++ [c])) =
      .ok (if cs = [] then none else some (String.ofList cs)) := by
  have octet : (String.utf8EncodeChar c).length = 1 := by
    simp only [SymbolStem.isCharsetLetter, Bool.or_eq_true, beq_iff_eq] at letter
    rcases letter with rfl | rfl <;> decide
  have size : (Text.Utf8.encode (String.ofList (cs ++ [c]))).toArray.size =
      (Text.Utf8.encode (String.ofList cs)).length + 1 := by
    rw [encode_concat, List.size_toArray, List.length_append, octet]
  have front : (Text.Utf8.encode (String.ofList (cs ++ [c]))).toArray.extract 0
      (Text.Utf8.encode (String.ofList cs)).length =
        (Text.Utf8.encode (String.ofList cs)).toArray := by
    rw [encode_concat]
    simp
  have last :
      (String.ofList (cs ++ [c])).toList.getLast?.any SymbolStem.isCharsetLetter = true := by
    simp [letter]
  rw [stem?]
  simp only [size, last, and_true]
  by_cases alone : cs = []
  · subst alone
    rfl
  · have some : 0 < (Text.Utf8.encode (String.ofList cs)).length := by
      obtain ⟨c, rest, rfl⟩ := List.exists_cons_of_ne_nil alone
      have first := c.utf8Size_pos
      simp only [Text.Utf8.encode, String.toList_ofList, List.flatMap_cons, List.length_append,
        String.length_utf8EncodeChar]
      omega
    rw [if_pos (by omega), if_neg alone, difference_eq (by omega), ok_bind, Nat.add_sub_cancel,
      slice_eq (Nat.zero_le _) (by rw [size]; omega), ok_bind, front, Text.Utf8.strict?_encode]
    rfl

theorem stem?_eq (symbol : String) : stem? symbol = .ok (SymbolStem.stem? symbol) := by
  obtain ⟨cs, rfl⟩ : ∃ cs, symbol = String.ofList cs := ⟨symbol.toList, by simp⟩
  rcases List.eq_nil_or_concat cs with rfl | ⟨front, c, rfl⟩
  · rfl
  rw [List.concat_eq_append]
  by_cases letter : SymbolStem.isCharsetLetter c = true
  · rw [stem?_concat front letter]
    simp [SymbolStem.stem?, letter]
  · simp [stem?, SymbolStem.stem?, letter]
    rfl

theorem insert_eq {c : Catalog} {d : Declaration} (fits : c.declared + 1 < wordBound) :
    insert c d = .ok (c.insert d) := by
  rw [insert, sum_eq fits, ok_bind, stem?_eq, ok_bind]
  rfl

/-- So many declarations can be counted on top of those that are in. -/
theorem foldlM_insert {c : Catalog} {ds : List Declaration}
    (fits : c.declared + ds.length < wordBound) :
    ds.foldlM insert c = .ok (ds.foldl Catalog.insert c) := by
  induction ds generalizing c with
  | nil => rfl
  | cons d ds ih =>
    rw [List.length_cons] at fits
    have later : (c.insert d).declared + ds.length < wordBound := by
      have counted : (c.insert d).declared = c.declared + 1 := rfl
      omega
    rw [List.foldlM_cons, insert_eq (by omega), ok_bind, ih later, List.foldl_cons]

theorem size_locate {d root : Octets} (located : Metadata.locate d = .ok root) :
    root.size ≤ d.size := by
  rw [Metadata.locate] at located
  split at located
  next =>
    cases located
    exact Nat.le_refl _
  split at located
  next => cases located
  next header _ =>
    dsimp only at located
    split at located
    next => cases located
    obtain ⟨address, -, rest⟩ := exists_of_bind_ok located
    obtain ⟨size, -, rest⟩ := exists_of_bind_ok rest
    split at rest
    next sliced =>
      cases rest
      obtain ⟨-, rfl⟩ := Octets.slice_eq_ok_iff.mp sliced
      rw [Array.size_extract]
      exact Nat.le_trans (Nat.sub_le ..) (Nat.min_le_right ..)
    next => cases rest

theorem sound_catalogOf {content : Octets} (small : content.size < memoryBound) :
    Sound (catalogOf content) (Program.catalogOf content) := by
  apply (sound_locate small).bind
  intro root located
  have room : root.size < memoryBound := Nat.lt_of_le_of_lt (size_locate located) small
  apply (sound_database room).bind
  intro db read
  have loaded := loaded_read room read
  have few : Catalog.empty.declared + db.declarations.length < wordBound := by
    have := loaded.length_declarations_lt
    rwa [Catalog.empty, Nat.zero_add]
  rw [loaded.declarations_eq, ok_bind, foldlM_insert few]
  exact .ok _

/-- Loading the metadata of a file gives a catalog or fails with a defect of the metadata, and in
memory none of its sums, products, differences, indexes and slices is out of range. -/
theorem catalogOf_safe (content : Octets) :
    ((∃ catalog, Program.catalogOf content = .ok catalog) ∨
      ∃ defect, Program.catalogOf content = .error (.metadata defect) ∧
        (Failure.ofFault (.metadata defect)).exitCode = 6) ∧
    (content.size < memoryBound →
      catalogOf content = (Program.catalogOf content).mapError .fault) := by
  constructor
  · cases loaded : Program.catalogOf content with
    | ok catalog => exact .inl ⟨catalog, rfl⟩
    | error f =>
      obtain ⟨defect, rfl⟩ := catalogOf_fails content f loaded
      exact .inr ⟨defect, rfl, rfl⟩
  · exact sound_catalogOf

/-- A root whose one stream is said to be larger than the file. -/
def overlongStream : Octets :=
  #[0x42, 0x53, 0x4a, 0x42, 1, 0, 1, 0, 0, 0, 0, 0, 4, 0, 0, 0, 0x76, 0x34, 0, 0, 0, 0, 1, 0,
    0x20, 0, 0, 0, 0xff, 0xff, 0xff, 0xff, 0x23, 0x7e, 0, 0]

theorem catalogOf_overlongStream :
    overlongStream.size < memoryBound ∧
      catalogOf overlongStream = .error (.fault (.metadata (.streamOutOfBounds "#~"))) := by
  have small : overlongStream.size < memoryBound := by decide
  have failed : Program.catalogOf overlongStream = .error (.metadata (.streamOutOfBounds "#~")) :=
    eq_error_of_fault? (by decide +kernel)
  refine ⟨small, ?_⟩
  rw [(catalogOf_safe overlongStream).2 small, failed]
  rfl

end WinFloor.Guarded
