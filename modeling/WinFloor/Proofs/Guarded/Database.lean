import WinFloor.Metadata.Native
import WinFloor.Proofs.Guarded.Root
import WinFloor.Proofs.Guarded.Tables
import WinFloor.Proofs.Text.Utf8

/-!
The joins of metadata with every operation guarded. That the end of the method list fits a field
follows from `Laid.rowCount_lt`, and so do the numbers of types.
-/
namespace WinFloor.Guarded

open Metadata

/-! ## Heaps -/

def stringOf (h : StringHeap) (index : Nat) : Run String :=
  if index ≤ h.data.size then do
    let taken ← slice h.data index ((h.data.zeroFrom? index).getD h.data.size)
    return (Text.Utf8.strict? taken.toList).getD ""
  else return ""

def blobOf (h : BlobHeap) (index : Nat) : Run Octets :=
  if index ≤ h.data.size then value (do take (← compressed)) ⟨h.data, index, 0⟩
  else throw (.fault (.outOfBounds index h.data.size))

def attributeValue (db : Database) (place : UInt32) : Run AttributeValue := do
  value attributeReading (.start (← blobOf db.blobs place.toNat))

/-! ## Types and their methods -/

def typeName? (db : Database) (table : Table) (row : Nat) : Run (Option (String × String)) :=
  if table = .typeDef ∨ table = .typeRef then do
    match ← row? db.tables table row with
    | some r =>
      let space ← stringOf db.strings (← get r Database.typeNamespace).toNat
      let name ← stringOf db.strings (← get r Database.typeName).toNat
      return some (space, name)
    | none => return none
  else return none

def methodsBetween (db : Database) (first stop : Nat) : Run (List Nat) := do
  let first := max first 1
  let methods ← (List.range' first (stop - first)).mapM (indirect db.tables .methodPtr)
  return methods.filter (· ≠ 0)

def methodsByType (db : Database) : Run (List (List Nat)) := do
  let starts ← (← rows db.tables .typeDef).mapM fun r => do
    return (← get r Database.typeMethodList).toNat
  let stop ← sum fieldBound db.methodListSize 1
  let stops := (starts.drop 1).map (min · stop) ++ [stop]
  (starts.zip stops).mapM fun bounds => methodsBetween db bounds.1 bounds.2

def methodOwners (db : Database) : Run (Std.HashMap Nat Nat) := do
  let numbered ← (← methodsByType db).zipIdx.mapM fun methods => do
    return (methods.1, ← sum fieldBound methods.2 1)
  return numbered.foldl
    (fun owners (methods, owner) => methods.foldl (fun owners m => owners.insert m owner) owners) ∅

/-! ## Attributes and imports -/

def constructorType? (db : Database) (owners : Std.HashMap Nat Nat) (constructor : UInt32) :
    Run (Option (String × String)) :=
  match CodedIndex.customAttributeType.decode constructor with
  | some (.methodDef, row) =>
    match owners[row.toNat]? with
    | some owner => typeName? db .typeDef owner
    | none => return none
  | some (.memberRef, row) => do
    match ← row? db.tables .memberRef row.toNat with
    | some member =>
      match CodedIndex.memberRefParent.decode (← get member Database.memberParent) with
      | some (table, row) => typeName? db table row.toNat
      | none => return none
    | none => return none
  | _ => return none

/-- What an attribute says, where its value can be read. -/
def attributeFrom (db : Database) (place : UInt32) (said : AttributeValue → Attribute) :
    Run Attribute :=
  match attributeValue db place with
  | .ok v => return said v
  | .error (.fault _) => return .other
  | .error .outOfRange => throw .outOfRange

def attributeOf (db : Database) (owners : Std.HashMap Nat Nat) (constructor place : UInt32) :
    Run Attribute := do
  match ← constructorType? db owners constructor with
  | none => return .other
  | some (_, name) =>
    if name = Database.platformAttribute then
      attributeFrom db place fun v => .platform (v.fixed.getD "")
    else if name = Database.importAttribute then
      attributeFrom db place fun v => .nativeImport (v.fixed.getD "") v.entryPoint
    else return .other

def methodAttribute? (db : Database) (owners : Std.HashMap Nat Nat) (r : SlicedRow) :
    Run (Option (Nat × Attribute)) := do
  match CodedIndex.hasCustomAttribute.decode (← get r Database.attributeParent) with
  | some (.methodDef, m) =>
    match ← attributeOf db owners (← get r Database.attributeConstructor)
        (← get r Database.attributeValueColumn) with
    | .other => return none
    | a => return some (m.toNat, a)
  | _ => return none

def attributesByMethod (db : Database) : Run AttributesByMethod := do
  let owners ← methodOwners db
  (← rows db.tables .customAttribute).foldlM (fun attributes r => do
    match ← methodAttribute? db owners r with
    | some (m, a) => return attributes.alter m fun known => some ((known.getD #[]).push a)
    | none => return attributes) ∅

/-- The name of the module that an import row refers to. -/
def scopeOf (db : Database) (row : Nat) : Run String := do
  match ← row? db.tables .moduleRef row with
  | some scope => stringOf db.strings (← get scope Database.scopeName).toNat
  | none => return ""

def methodImport? (db : Database) (r : SlicedRow) : Run (Option (Nat × NativeImport)) := do
  match CodedIndex.memberForwarded.decode (← get r Database.importForwarded) with
  | some (.methodDef, m) =>
    let moduleName ← scopeOf db (← get r Database.importScope).toNat
    let entry ← stringOf db.strings (← get r Database.importName).toNat
    return some (m.toNat, { moduleName, entry })
  | _ => return none

def importsByMethod (db : Database) : Run ImportsByMethod := do
  (← rows db.tables .implMap).foldlM (fun imports r => do
    match ← methodImport? db r with
    | some (m, i) => return imports.insert m i
    | none => return imports) ∅

/-! ## Declarations -/

def declaration? (db : Database) (attributes : AttributesByMethod) (imports : ImportsByMethod)
    (method : Nat) : Run (Option Declaration) := do
  match ← row? db.tables .methodDef method with
  | none => return none
  | some r =>
    let own := (attributes.getD method #[]).toList
    let name ← stringOf db.strings (← get r Database.methodName).toNat
    match Database.nativeImport? (← get r Database.methodFlags) imports[method]? own with
    | none => return none
    | some i =>
      if i.moduleName = "" then return none
      else
        return some { moduleName := i.moduleName
                      symbol := if i.entry = "" then name else i.entry
                      requirement := Database.requirementOf own }

def declarations (db : Database) : Run (List Declaration) := do
  let attributes ← attributesByMethod db
  let imports ← importsByMethod db
  let byType ← (← methodsByType db).mapM fun methods =>
    methods.filterMapM (declaration? db attributes imports)
  return byType.flatten

/-! ## Soundness of the joins -/

theorem stringOf_eq (h : StringHeap) (index : Nat) : stringOf h index = .ok (h.get index) := by
  rw [stringOf, StringHeap.get]
  by_cases inside : index ≤ h.data.size
  · rw [if_pos inside]
    have bounds : index ≤ (h.data.zeroFrom? index).getD h.data.size ∧
        (h.data.zeroFrom? index).getD h.data.size ≤ h.data.size := by
      cases found : h.data.zeroFrom? index with
      | none => exact ⟨inside, Nat.le_refl _⟩
      | some stop =>
        obtain ⟨behind, before⟩ := Octets.zeroFrom?_eq_some found
        exact ⟨behind, Nat.le_of_lt before⟩
    rw [slice_eq bounds.1 bounds.2, ok_bind]
    rfl
  · have none : h.data.zeroFrom? index = none := by
      rw [Octets.zeroFrom?, dif_neg (by omega)]
    have nothing : h.data.extract index h.data.size = #[] := by
      apply Array.extract_empty_of_stop_le_start
      omega
    have empty : Text.Utf8.strict? [] = some "" := Text.Utf8.strict?_encode ""
    rw [if_neg inside, none, Option.getD_none, nothing, empty]
    rfl

theorem follows_blob {d : Octets} :
    Follows d (do take (← compressed)) (do Reader.take (← Reader.compressed))
      fun blob => blob.size < memoryBound := by
  apply Follows.compressed.bind
  intro length _
  exact (Follows.take length).weaken fun _ both => both.2

theorem sound_blobOf {h : BlobHeap} (small : h.data.size < memoryBound) (index : Nat) :
    Sound (blobOf h index) (h.get index) ∧
      ∀ blob, h.get index = .ok blob → blob.size < memoryBound := by
  rw [blobOf, BlobHeap.get]
  by_cases inside : index ≤ h.data.size
  · rw [if_pos inside, if_pos inside]
    have ready : Ready h.data ⟨h.data, index, 0⟩ := ⟨rfl, inside, small⟩
    exact ⟨value_eq follows_blob ready, fun blob read => value_holds follows_blob ready read⟩
  · rw [if_neg inside, if_neg inside]
    exact ⟨.error _, fun blob read => by cases read⟩

/-- A database that was read from octets in memory. -/
structure Loaded (db : Database) : Prop where
  tables : Laid db.tables
  blobs : db.blobs.data.size < memoryBound

theorem length_methodsByType_le (db : Database) :
    db.methodsByType.length ≤ db.tables.rowCount .typeDef := by
  have listed : (db.tables.rows .typeDef).length ≤ db.tables.rowCount .typeDef := by
    rw [Tables.rows]
    apply Nat.le_trans (List.length_filterMap_le ..)
    exact Nat.le_of_eq List.length_range'
  rw [Database.methodsByType, List.length_zipWith, List.length_map]
  omega

theorem length_methodsBetween_le (db : Database) (first stop : Nat) :
    (db.methodsBetween first stop).length ≤ stop - 1 := by
  rw [Database.methodsBetween]
  apply Nat.le_trans (List.length_filter_le ..)
  rw [List.length_map, List.length_range']
  omega

theorem exists_of_mem_zipWith {f : α → β → γ} {as : List α} {bs : List β} {c : γ}
    (h : c ∈ as.zipWith f bs) : ∃ a, ∃ b ∈ bs, f a b = c := by
  rw [← List.map_uncurry_zip_eq_zipWith] at h
  obtain ⟨pair, zipped, same⟩ := List.mem_map.mp h
  exact ⟨pair.1, pair.2, (List.of_mem_zip zipped).2, same⟩

/-- A type has no more methods than the list has places. -/
theorem length_le_of_mem_methodsByType {db : Database} {methods : List Nat}
    (h : methods ∈ db.methodsByType) : methods.length ≤ db.methodListSize := by
  rw [Database.methodsByType] at h
  obtain ⟨first, stop, listed, rfl⟩ := exists_of_mem_zipWith h
  have shorter := length_methodsBetween_le db first stop
  rcases List.mem_append.mp listed with next | last
  · obtain ⟨start, -, rfl⟩ := List.mem_map.mp next
    omega
  · have same : stop = db.methodListSize + 1 := List.mem_singleton.mp last
    omega

theorem length_flatMap_le {f : α → List β} {xs : List α} {n : Nat}
    (h : ∀ x ∈ xs, (f x).length ≤ n) : (xs.flatMap f).length ≤ xs.length * n := by
  induction xs with
  | nil => simp
  | cons x xs ih =>
    have first := h x List.mem_cons_self
    have rest := ih fun y listed => h y (List.mem_cons_of_mem _ listed)
    rw [List.flatMap_cons, List.length_append, List.length_cons, Nat.succ_mul]
    omega

namespace Loaded

variable {db : Database} (loaded : Loaded db)
include loaded

theorem typeName?_eq (table : Table) (row : Nat) :
    typeName? db table row = .ok (db.typeName? table row) := by
  rw [typeName?, Database.typeName?]
  by_cases named : table = .typeDef ∨ table = .typeRef
  · rw [if_pos named, if_pos named]
    rcases loaded.tables.row?_eq table row with ⟨guarded, plain⟩ | ⟨s, r, guarded, plain, same⟩
    · rw [guarded, plain]
      rfl
    · simp only [guarded, plain, ok_bind, same _, stringOf_eq]
      rfl
  · rw [if_neg named, if_neg named]
    rfl

theorem methodsBetween_eq (first stop : Nat) :
    methodsBetween db first stop = .ok (db.methodsBetween first stop) := by
  have numbers := fun place => loaded.tables.indirect_eq .methodPtr place
  rw [methodsBetween, Database.methodsBetween, mapM_eq fun place _ => numbers place, ok_bind]
  rfl

/-- The list of methods ends before half the numbers of a field. -/
theorem methodListSize_lt : 2 * db.methodListSize < fieldBound := by
  have pointers := loaded.tables.rowCount_lt .methodPtr
  have methods := loaded.tables.rowCount_lt .methodDef
  rw [Database.methodListSize]
  split <;> omega

theorem methodsByType_eq : methodsByType db = .ok db.methodsByType := by
  obtain ⟨ss, guarded, slices⟩ := loaded.tables.rows_eq .typeDef
  have starts := mapM_rows slices
    (f := fun r => do return (← get r Database.typeMethodList).toNat)
    (g := fun n => (n.2.get Database.typeMethodList).toNat)
    (fun s n same => by rw [same, ok_bind]; rfl)
  have size := loaded.methodListSize_lt
  rw [fieldBound] at size
  rw [methodsByType, guarded, ok_bind, starts, ok_bind, sum_eq (by rw [fieldBound]; omega), ok_bind]
  rw [mapM_eq fun bounds _ => loaded.methodsBetween_eq bounds.1 bounds.2,
    List.map_zip_eq_zipWith]
  rfl

theorem methodOwners_eq : methodOwners db = .ok db.methodOwners := by
  have types := loaded.tables.rowCount_lt .typeDef
  have few := length_methodsByType_le db
  have numbers : ∀ methods ∈ db.methodsByType.zipIdx,
      (do return (methods.1, ← sum fieldBound methods.2 1) : Run (List Nat × Nat)) =
        .ok (methods.1, methods.2 + 1) := by
    intro methods listed
    have below := List.snd_lt_of_mem_zipIdx listed
    rw [sum_eq (by omega)]
    rfl
  rw [methodOwners, loaded.methodsByType_eq, ok_bind, mapM_eq numbers, ok_bind,
    ← List.zipIdx_succ]
  rfl

theorem constructorType?_eq (owners : Std.HashMap Nat Nat) (constructor : UInt32) :
    constructorType? db owners constructor = .ok (db.constructorType? owners constructor) := by
  rw [constructorType?, Database.constructorType?]
  cases CodedIndex.customAttributeType.decode constructor with
  | none => rfl
  | some decoded =>
    obtain ⟨table, row⟩ := decoded
    cases table
    case methodDef =>
      simp only [Option.bind_eq_bind, Option.bind_some]
      cases owners[row.toNat]? with
      | none => rfl
      | some owner => exact loaded.typeName?_eq .typeDef owner
    case memberRef =>
      simp only [Option.bind_eq_bind, Option.bind_some]
      rcases loaded.tables.row?_eq .memberRef row.toNat with
        ⟨guarded, plain⟩ | ⟨s, r, guarded, plain, same⟩
      · rw [guarded, plain]
        rfl
      · simp only [guarded, plain, ok_bind, same _, Option.bind_some]
        cases CodedIndex.memberRefParent.decode (r.get Database.memberParent) with
        | none => rfl
        | some parent => exact loaded.typeName?_eq parent.1 parent.2.toNat
    all_goals rfl

theorem sound_attributeValue (place : UInt32) :
    Sound (attributeValue db place) (db.attributeValue place) := by
  obtain ⟨sound, small⟩ := sound_blobOf loaded.blobs place.toNat
  apply sound.bind
  intro blob read
  exact value_eq follows_attributeReading (ready_start (small blob read))

theorem attributeFrom_eq (place : UInt32) (said : AttributeValue → Attribute) :
    attributeFrom db place said =
      .ok (match db.attributeValue place with
        | .ok v => said v
        | .error _ => .other) := by
  rw [attributeFrom, loaded.sound_attributeValue]
  cases db.attributeValue place <;> rfl

theorem attributeOf_eq (owners : Std.HashMap Nat Nat) (constructor place : UInt32) :
    attributeOf db owners constructor place = .ok (db.attributeOf owners constructor place) := by
  rw [attributeOf, Database.attributeOf, loaded.constructorType?_eq, ok_bind]
  cases db.constructorType? owners constructor with
  | none => rfl
  | some named =>
    simp only [loaded.attributeFrom_eq]
    split
    next => rfl
    next => split <;> rfl

theorem methodAttribute?_eq (owners : Std.HashMap Nat Nat) {s : SlicedRow} {r : Row}
    (same : Slices s r) :
    methodAttribute? db owners s = .ok (db.methodAttribute? owners r) := by
  rw [methodAttribute?, Database.methodAttribute?]
  simp only [same _, ok_bind, loaded.attributeOf_eq]
  cases CodedIndex.hasCustomAttribute.decode (r.get Database.attributeParent) with
  | none => rfl
  | some decoded =>
    obtain ⟨table, m⟩ := decoded
    cases table
    case methodDef =>
      simp only
      cases db.attributeOf owners (r.get Database.attributeConstructor)
        (r.get Database.attributeValueColumn) <;> rfl
    all_goals rfl

theorem attributesByMethod_eq : attributesByMethod db = .ok db.attributesByMethod := by
  obtain ⟨ss, guarded, slices⟩ := loaded.tables.rows_eq .customAttribute
  rw [attributesByMethod, Database.attributesByMethod, loaded.methodOwners_eq, ok_bind, guarded,
    ok_bind]
  apply foldlM_rows slices
  rintro attributes s ⟨number, r⟩ same
  rw [loaded.methodAttribute?_eq _ same, ok_bind]
  dsimp only
  cases db.methodAttribute? db.methodOwners r <;> rfl

theorem scopeOf_eq (row : Nat) :
    scopeOf db row = .ok (((db.tables.row? .moduleRef row).map fun r =>
      db.strings.get (r.get Database.scopeName).toNat).getD "") := by
  rw [scopeOf]
  rcases loaded.tables.row?_eq .moduleRef row with ⟨guarded, plain⟩ | ⟨s, r, guarded, plain, same⟩
  · rw [guarded, plain]
    rfl
  · simp only [guarded, plain, ok_bind, same _, stringOf_eq]
    rfl

theorem methodImport?_eq {s : SlicedRow} {r : Row} (same : Slices s r) :
    methodImport? db s = .ok (db.methodImport? r) := by
  rw [methodImport?, Database.methodImport?]
  simp only [same _, ok_bind, loaded.scopeOf_eq, stringOf_eq]
  cases CodedIndex.memberForwarded.decode (r.get Database.importForwarded) with
  | none => rfl
  | some decoded =>
    obtain ⟨table, m⟩ := decoded
    cases table <;> rfl

theorem importsByMethod_eq : importsByMethod db = .ok db.importsByMethod := by
  obtain ⟨ss, guarded, slices⟩ := loaded.tables.rows_eq .implMap
  rw [importsByMethod, Database.importsByMethod, guarded, ok_bind]
  apply foldlM_rows slices
  rintro imports s ⟨number, r⟩ same
  rw [loaded.methodImport?_eq same, ok_bind]
  dsimp only
  cases db.methodImport? r <;> rfl

theorem declaration?_eq (attributes : AttributesByMethod) (imports : ImportsByMethod)
    (method : Nat) :
    declaration? db attributes imports method =
      .ok (db.declaration? attributes imports method) := by
  rw [declaration?, Database.declaration?]
  rcases loaded.tables.row?_eq .methodDef method with
    ⟨guarded, plain⟩ | ⟨s, r, guarded, plain, same⟩
  · rw [guarded, plain]
    rfl
  · simp only [guarded, plain, ok_bind, same _, stringOf_eq, Option.bind_eq_bind,
      Option.bind_some]
    cases Database.nativeImport? (r.get Database.methodFlags) imports[method]?
      (attributes.getD method #[]).toList with
    | none => rfl
    | some i =>
      simp only [Option.bind_some]
      split <;> rfl

theorem declarations_eq : declarations db = .ok db.declarations := by
  rw [declarations, Database.declarations, loaded.attributesByMethod_eq, ok_bind,
    loaded.importsByMethod_eq, ok_bind, loaded.methodsByType_eq, ok_bind,
    mapM_eq fun methods _ => filterMapM_eq fun m _ => loaded.declaration?_eq _ _ m, ok_bind]
  rw [List.flatMap_def]
  rfl

/-- There are fewer declarations than a word counts: no more than types times places of the list. -/
theorem length_declarations_lt : db.declarations.length < wordBound := by
  have types : db.methodsByType.length ≤ 0x80000000 := by
    have few := length_methodsByType_le db
    have bound := loaded.tables.rowCount_lt .typeDef
    rw [fieldBound] at bound
    omega
  have size := loaded.methodListSize_lt
  rw [fieldBound] at size
  have each : ∀ methods ∈ db.methodsByType,
      (methods.filterMap
        (db.declaration? db.attributesByMethod db.importsByMethod)).length ≤ 0x80000000 := by
    intro methods listed
    have shorter := length_le_of_mem_methodsByType listed
    have filtered := List.length_filterMap_le
      (db.declaration? db.attributesByMethod db.importsByMethod) methods
    omega
  have total : db.declarations.length ≤ db.methodsByType.length * 0x80000000 :=
    length_flatMap_le each
  have product := Nat.mul_le_mul_right 0x80000000 types
  rw [wordBound]
  omega

end Loaded

end WinFloor.Guarded
