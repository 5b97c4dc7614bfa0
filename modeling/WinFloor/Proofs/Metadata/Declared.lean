import WinFloor.Proofs.Metadata.CodedIndex
import WinFloor.Proofs.Metadata.Layout

/-!
What a database that holds content says. Each join gives back what the content has: the methods of
a type (`methodsByType_eq`), the type that a constructor belongs to (`constructorType?_eq`), the
attributes and imports of a method, and so the declarations (`declarations_eq`).
-/
namespace WinFloor.Metadata

/-! ## References -/

namespace CodedIndex

/-- What is written by the standard is read by the tables of the reader. -/
theorem decode_cell (k : CodedIndex) {t : Table} {row : Nat} {v : UInt32}
    (h : v.toNat = (Standard.ofIndex k).cell t row) (listed : some t ∈ k.tables) :
    ∃ n : UInt32, n.toNat = row ∧ k.decode v = some (t, n) := by
  rw [Standard.Reference.cell, Standard.tagBits_ofIndex, Standard.tables_ofIndex] at h
  have found : k.tables[k.tables.idxOf (some t)]? = some (some t) := List.getElem?_idxOf listed
  obtain ⟨number, tag⟩ := parts_iff.mpr ⟨h.symm, tag_lt found⟩
  have small : row < UInt32.size := by
    rw [← number]
    exact Nat.lt_of_le_of_lt (Nat.shiftRight_le ..) v.toNat_lt
  have same := UInt32.toNat_ofNat_of_lt' small
  refine ⟨UInt32.ofNat row, same, ?_⟩
  rw [decode_eq_some_iff, tag, same]
  exact ⟨found, number⟩

end CodedIndex

theorem length_starts (first : Nat) (ts : List DefinedType) :
    (starts first ts).length = ts.length := by
  induction ts generalizing first with
  | nil => rfl
  | cons t ts ih => rw [starts, List.length_cons, ih, List.length_cons]

namespace Layout

variable {c : Content} (l : Layout c)

theorem getD_stored (rows : List (List Nat)) : (stored rows).getD [] = rows := by
  rw [stored]
  cases rows <;> rfl

theorem rows_typeDef :
    l.tables.rows .typeDef = (c.types.zip (starts 1 c.types)).mapIdx l.typeRow :=
  getD_stored _

theorem rows_methodDef : l.tables.rows .methodDef = c.methods.mapIdx l.methodRow :=
  getD_stored _

theorem rows_typeRef : l.tables.rows .typeRef = l.references.mapIdx l.referenceRow :=
  getD_stored _

theorem rows_memberRef : l.tables.rows .memberRef = l.parents.mapIdx l.memberRow :=
  getD_stored _

theorem rows_moduleRef : l.tables.rows .moduleRef = l.modules.mapIdx l.moduleRow :=
  getD_stored _

theorem rows_customAttribute :
    l.tables.rows .customAttribute =
      (numbered Method.attributes 1 c.methods).mapIdx l.attributeRow :=
  getD_stored _

theorem rows_implMap :
    l.tables.rows .implMap = (numbered (·.mapped?.toList) 1 c.methods).mapIdx l.importRow :=
  getD_stored _

theorem rows_methodPtr : l.tables.rows .methodPtr = [] := rfl

end Layout

namespace Database.Holds

variable {c : Content} {l : Layout c} {db : Database}

/-! ## Heaps -/

theorem string_eq (h : db.Holds l) (formed : c.WellFormed) {s : String} (listed : s ∈ c.strings) :
    db.strings.get (l.strings.place s) = s := by
  obtain ⟨behind, there⟩ := l.strings.stored s listed
  rw [← h.strings] at there
  exact get_string there (formed.free s listed)

theorem blob_eq (h : db.Holds l) (fits : l.Fits) {bs : List UInt8} (listed : bs ∈ c.values) :
    db.blobs.get (l.blobs.place bs) = .ok bs.toArray := by
  obtain ⟨behind, there⟩ := l.blobs.stored bs listed
  rw [← h.blobs] at there
  exact get_blob there (fits.values bs listed)

/-! ## Types -/

theorem typeName?_definition (h : db.Holds l) (formed : c.WellFormed) {i : Nat}
    (inside : i < c.types.length) :
    db.typeName? .typeDef (i + 1) = some (c.types[i].namespaceName, c.types[i].name) := by
  have listed : i < (c.types.zip (starts 1 c.types)).length := by
    rw [List.length_zip, length_starts, Nat.min_self]
    exact inside
  obtain ⟨r, found, shows⟩ := h.tables.row?_rows l.rows_typeDef listed
  rw [List.getElem_zip] at shows
  have name : (r.get typeName).toNat = l.strings.place c.types[i].name := shows.get 1 rfl
  have space : (r.get typeNamespace).toNat = l.strings.place c.types[i].namespaceName :=
    shows.get 2 rfl
  have member : c.types[i] ∈ c.types := List.getElem_mem inside
  have strings {s : String} (either : s ∈ [c.types[i].namespaceName, c.types[i].name]) :
      s ∈ c.strings := by
    simp only [Content.strings, List.mem_append]
    exact .inl (.inl (.inl (List.mem_flatMap.mpr ⟨_, member, either⟩)))
  rw [typeName?, if_pos (.inl rfl), found, Option.map_some, name, space,
    h.string_eq formed (strings (by simp)), h.string_eq formed (strings (by simp))]

theorem typeName?_reference (h : db.Holds l) (formed : c.WellFormed) {r : String × String}
    (listed : r ∈ c.references) :
    db.typeName? .typeRef (l.references.idxOf r + 1) = some r := by
  have inside := List.idxOf_lt_length_of_mem (l.referenced listed)
  obtain ⟨row, found, shows⟩ := h.tables.row?_rows l.rows_typeRef inside
  rw [List.getElem_idxOf inside] at shows
  have name : (row.get typeName).toNat = l.strings.place r.2 := shows.get 1 rfl
  have space : (row.get typeNamespace).toNat = l.strings.place r.1 := shows.get 2 rfl
  have strings {s : String} (either : s ∈ [r.1, r.2]) : s ∈ c.strings := by
    simp only [Content.strings, List.mem_append]
    exact .inr (List.mem_flatMap.mpr ⟨_, listed, either⟩)
  rw [typeName?, if_pos (.inr rfl), found, Option.map_some, name, space,
    h.string_eq formed (strings (by simp)), h.string_eq formed (strings (by simp))]

/-! ## Methods of types -/

/-- The numbers of the methods of each type, that of the first type's first method being `first`. -/
def methodNumbers : (first : Nat) → List DefinedType → List (List Nat)
  | _, [] => []
  | first, t :: ts =>
    List.range' first t.methods.length :: methodNumbers (first + t.methods.length) ts

theorem rowCount_methodPtr (h : db.Holds l) : db.tables.rowCount .methodPtr = 0 := by
  rw [h.tables.rowCount, TableSet.count, l.rows_methodPtr]
  rfl

theorem methodsBetween_eq (h : db.Holds l) {first : Nat} (positive : 0 < first) (count : Nat) :
    db.methodsBetween first (first + count) = List.range' first count := by
  have direct : db.tables.indirect .methodPtr = id :=
    funext (Tables.indirect_of_no_rows h.rowCount_methodPtr)
  rw [methodsBetween, direct, List.map_id, Nat.max_eq_left positive, Nat.add_sub_cancel_left]
  apply List.filter_eq_self.mpr
  intro n listed
  have := (List.mem_range'_1.mp listed).1
  simp only [ne_eq, decide_eq_true_eq]
  omega

/-- Each type has the methods up to where the next type starts, the last one those up to the end of
the list. -/
theorem zipWith_methodsBetween (h : db.Holds l) {first stop : Nat} (positive : 0 < first)
    {ts : List DefinedType} (total : first + (ts.flatMap DefinedType.methods).length = stop) :
    (starts first ts).zipWith db.methodsBetween
      (((starts first ts).drop 1).map (min · stop) ++ [stop]) = methodNumbers first ts := by
  induction ts generalizing first with
  | nil => rfl
  | cons t ts ih =>
    rw [List.flatMap_cons, List.length_append, ← Nat.add_assoc] at total
    have behind : 0 < first + t.methods.length := by omega
    have rest := ih behind total
    cases ts with
    | nil =>
      rw [List.flatMap_nil, List.length_nil, Nat.add_zero] at total
      simp only [starts, methodNumbers, List.drop_one, List.tail_cons, List.map_nil,
        List.nil_append, List.zipWith_cons_cons, List.zipWith_nil_right, ← total,
        h.methodsBetween_eq positive]
    | cons u us =>
      have below : min (first + t.methods.length) stop = first + t.methods.length := by omega
      rw [starts, methodNumbers, ← rest]
      simp only [starts, List.drop_one, List.tail_cons, List.map_cons, below, List.cons_append,
        List.zipWith_cons_cons, h.methodsBetween_eq positive]

theorem methodsByType_eq (h : db.Holds l) : db.methodsByType = methodNumbers 1 c.types := by
  have size : db.methodListSize = c.methods.length := by
    rw [methodListSize, h.rowCount_methodPtr]
    change db.tables.rowCount .methodDef = _
    rw [h.tables.rowCount, TableSet.count, l.rows_methodDef, List.length_mapIdx]
  have listed : (db.tables.rows .typeDef).map (fun numbered =>
      (numbered.2.get typeMethodList).toNat) = starts 1 c.types := by
    have each := h.tables.filterMap_rows l.rows_typeDef
      (f := fun row => some (row.get typeMethodList).toNat) (g := Prod.snd)
      (fun r i x _ shows => congrArg some (shows.get 5 rfl))
    rw [List.map_snd_zip (by rw [length_starts])] at each
    rw [← each, ← List.filterMap_eq_map]
    rfl
  have total : 1 + (c.types.flatMap DefinedType.methods).length = c.methods.length + 1 := by
    rw [Content.methods, Nat.add_comm]
  have zipped := h.zipWith_methodsBetween Nat.one_pos total
  rw [← listed, ← size] at zipped
  exact zipped

/-! ## Owners of methods -/

/-- The owners of methods that are numbered on from `first`, their types from `owner`. -/
def ownersFrom (first owner : Nat) (ts : List DefinedType) (owners : Std.HashMap Nat Nat) :
    Std.HashMap Nat Nat :=
  ((methodNumbers first ts).zipIdx owner).foldl
    (fun owners (methods, owner) => methods.foldl (fun owners m => owners.insert m owner) owners)
    owners

theorem ownersFrom_cons (first owner : Nat) (t : DefinedType) (ts : List DefinedType)
    (owners : Std.HashMap Nat Nat) :
    ownersFrom first owner (t :: ts) owners =
      ownersFrom (first + t.methods.length) (owner + 1) ts
        ((List.range' first t.methods.length).foldl (fun owners m => owners.insert m owner)
          owners) := by
  rw [ownersFrom, methodNumbers, List.zipIdx_cons, List.foldl_cons]
  rfl

theorem getElem?_ownersFrom_of_lt {first m : Nat} (below : m < first) (owner : Nat)
    (ts : List DefinedType) (owners : Std.HashMap Nat Nat) :
    (ownersFrom first owner ts owners)[m]? = owners[m]? := by
  induction ts generalizing first owner owners with
  | nil => rfl
  | cons t ts ih =>
    have outside : m ∉ List.range' first t.methods.length := by
      rw [List.mem_range'_1]
      omega
    rw [ownersFrom_cons, ih (by omega), getElem?_foldl_owner, if_neg outside]

theorem getElem?_ownersFrom (first owner : Nat) {ts : List DefinedType}
    (owners : Std.HashMap Nat Nat) {i j : Nat} {t : DefinedType} (type : ts[i]? = some t)
    (inside : j < t.methods.length) :
    (ownersFrom first owner ts owners)[(starts first ts)[i]?.getD 0 + j]? = some (owner + i) := by
  induction ts generalizing first owner owners i with
  | nil => cases type
  | cons u ts ih =>
    rw [ownersFrom_cons, starts]
    cases i with
    | zero =>
      cases type
      have listed : first + j ∈ List.range' first t.methods.length := by
        rw [List.mem_range'_1]
        omega
      rw [List.getElem?_cons_zero, Option.getD_some, getElem?_ownersFrom_of_lt (by omega),
        getElem?_foldl_owner, if_pos listed]
      rfl
    | succ i =>
      rw [List.getElem?_cons_succ] at type ⊢
      rw [ih _ _ _ type, Nat.add_assoc, Nat.add_comm 1]

theorem methodOwners_number (h : db.Holds l) {type index : Nat} {t : DefinedType}
    (found : c.types[type]? = some t) (inside : index < t.methods.length) :
    db.methodOwners[c.number type index]? = some (type + 1) := by
  rw [methodOwners, h.methodsByType_eq, Nat.add_comm type]
  exact getElem?_ownersFrom 1 1 ∅ found inside

/-! ## Attributes -/

theorem parent_eq (h : db.Holds l) {p : MemberParent} (listed : p ∈ c.parents) :
    ∃ member, db.tables.row? .memberRef (l.parents.idxOf p + 1) = some member ∧
      (member.get memberParent).toNat = l.parentCell p := by
  have inside := List.idxOf_lt_length_of_mem (l.parented listed)
  obtain ⟨member, found, shows⟩ := h.tables.row?_rows l.rows_memberRef inside
  rw [List.getElem_idxOf inside] at shows
  exact ⟨member, found, shows.get 0 rfl⟩

theorem constructorType?_eq (h : db.Holds l) (formed : c.WellFormed) {a : MethodAttribute}
    (listed : a ∈ c.attributes) {v : UInt32} (cell : v.toNat = l.constructorCell a) :
    ∃ namespaceName, db.constructorType? db.methodOwners v =
      some (namespaceName, a.remark.typeName) := by
  have named := formed.named a listed
  obtain ⟨constructor, remark⟩ := a
  cases constructor with
  | reference namespaceName =>
    obtain ⟨n, number, decoded⟩ := CodedIndex.customAttributeType.decode_cell cell (by decide)
    have parented : MemberParent.reference namespaceName remark.typeName ∈ c.parents :=
      List.mem_filterMap.mpr ⟨_, listed, rfl⟩
    have referenced : (namespaceName, remark.typeName) ∈ c.references :=
      List.mem_filterMap.mpr ⟨_, listed, rfl⟩
    obtain ⟨member, found, parent⟩ := h.parent_eq parented
    obtain ⟨k, row, decodedParent⟩ := CodedIndex.memberRefParent.decode_cell parent (by decide)
    refine ⟨namespaceName, ?_⟩
    simp only [constructorType?, decoded, Option.bind_eq_bind, Option.bind_some, number, found,
      decodedParent, row, h.typeName?_reference formed referenced]
  | definition type =>
    obtain ⟨n, number, decoded⟩ := CodedIndex.customAttributeType.decode_cell cell (by decide)
    have parented : MemberParent.definition type ∈ c.parents :=
      List.mem_filterMap.mpr ⟨_, listed, rfl⟩
    obtain ⟨member, found, parent⟩ := h.parent_eq parented
    obtain ⟨k, row, decodedParent⟩ := CodedIndex.memberRefParent.decode_cell parent (by decide)
    obtain ⟨t, there, name⟩ := (Option.any_eq_true ..).mp named
    obtain ⟨inside, rfl⟩ := List.getElem?_eq_some_iff.mp there
    have name : c.types[type].name = remark.typeName := by simpa using name
    refine ⟨c.types[type].namespaceName, ?_⟩
    simp only [constructorType?, decoded, Option.bind_eq_bind, Option.bind_some, number, found,
      decodedParent, row, h.typeName?_definition formed inside, name]
  | method type index =>
    obtain ⟨n, number, decoded⟩ := CodedIndex.customAttributeType.decode_cell cell (by decide)
    obtain ⟨t, there, both⟩ := (Option.any_eq_true ..).mp named
    obtain ⟨inside, rfl⟩ := List.getElem?_eq_some_iff.mp there
    have both : c.types[type].name = remark.typeName ∧ index < c.types[type].methods.length := by
      simpa using both
    refine ⟨c.types[type].namespaceName, ?_⟩
    simp only [constructorType?, decoded, Option.bind_eq_bind, Option.bind_some, number,
      h.methodOwners_number there both.2, h.typeName?_definition formed inside, both.1]

theorem hasLength_of_octets {fixed : String} {entryPoint : Option String}
    (short : (AttributeValue.octets fixed entryPoint).length < compressedBound) :
    HasLength fixed ∧ ∀ name, entryPoint = some name → HasLength name := by
  rw [AttributeValue.octets] at short
  simp only [List.length_append, stringOctets, sizedOctets] at short
  constructor
  · rw [HasLength]
    omega
  · rintro name rfl
    simp only [AttributeValue.namedOctets, AttributeValue.stringFieldOctets, List.length_append,
      stringOctets, sizedOctets] at short
    rw [HasLength]
    omega

theorem attributeValue_eq (h : db.Holds l) (fits : l.Fits) {fixed : String}
    {entryPoint : Option String} (stored : AttributeValue.octets fixed entryPoint ∈ c.values)
    {value : UInt32}
    (place : value.toNat = l.blobs.place (AttributeValue.octets fixed entryPoint)) :
    db.attributeValue value = .ok ⟨some fixed, entryPoint⟩ := by
  obtain ⟨short, named⟩ := hasLength_of_octets (fits.values _ stored)
  have read := AttributeValue.read_octets short named
  rw [attributeValue, place, h.blob_eq fits stored]
  simp only [bind, Except.bind, read]

theorem attributeOf_eq (h : db.Holds l) (fits : l.Fits) (formed : c.WellFormed)
    {a : MethodAttribute} (listed : a ∈ c.attributes) {constructor value : UInt32}
    (cell : constructor.toNat = l.constructorCell a)
    (place : value.toNat = l.blobs.place a.remark.octets) :
    db.attributeOf db.methodOwners constructor value = a.remark.said := by
  obtain ⟨namespaceName, type⟩ := h.constructorType?_eq formed listed cell
  have stored : a.remark.octets ∈ c.values := List.mem_map_of_mem listed
  rw [attributeOf, type]
  cases remark : a.remark with
  | nativeImport moduleName entryPoint =>
    rw [remark] at stored place
    have read := h.attributeValue_eq fits stored place
    have other : ¬ importAttribute = platformAttribute := by decide
    have same : Remark.typeName (.nativeImport moduleName entryPoint) = importAttribute := rfl
    simp only [same, if_neg other, ↓reduceIte, read]
    rfl
  | platform text =>
    rw [remark] at stored place
    have read := h.attributeValue_eq fits stored place
    have same : Remark.typeName (.platform text) = platformAttribute := rfl
    simp only [same, ↓reduceIte, read]
    rfl

theorem methodAttribute?_eq (h : db.Holds l) (fits : l.Fits) (formed : c.WellFormed)
    {a : Nat × MethodAttribute} (listed : a.2 ∈ c.attributes) {r : Row} {i : Nat}
    (shows : r.Shows (l.attributeRow i a)) :
    db.methodAttribute? db.methodOwners r = some (a.1, a.2.remark.said) := by
  obtain ⟨m, number, decoded⟩ :=
    CodedIndex.hasCustomAttribute.decode_cell (shows.get 0 rfl) (by decide)
  have said := h.attributeOf_eq fits formed listed (shows.get 1 rfl) (shows.get 2 rfl)
  rw [methodAttribute?, attributeParent, decoded]
  simp only [attributeConstructor, attributeValueColumn, said, number]
  cases a.2.remark <;> rfl

/-- The attributes of a method, in their order. -/
theorem attributesByMethod_eq (h : db.Holds l) (fits : l.Fits) (formed : c.WellFormed) {i : Nat}
    (inside : i < c.methods.length) :
    (db.attributesByMethod.getD (1 + i) #[]).toList = c.methods[i].read := by
  have rows := h.tables.filterMap_rows l.rows_customAttribute
    (f := db.methodAttribute? db.methodOwners) (g := fun a => (a.1, a.2.remark.said))
    (fun r i a listed shows => h.methodAttribute?_eq fits formed (mem_numbered listed).2 shows)
  have own := filter_numbered Method.attributes 1 inside
  rw [attributesByMethod_eq_foldl, rows, getD_foldl_push, List.filter_map, List.map_map,
    Method.read, ← own]
  simp [Function.comp_def]

/-! ## Imports -/

theorem methodImport?_eq (h : db.Holds l) (formed : c.WellFormed) {i : Nat × NativeImport}
    (listed : i.2 ∈ c.imports) {r : Row} {n : Nat} (shows : r.Shows (l.importRow n i)) :
    db.methodImport? r = some i := by
  obtain ⟨m, number, decoded⟩ :=
    CodedIndex.memberForwarded.decode_cell (shows.get 1 rfl) (by decide)
  have moduleListed : i.2.moduleName ∈ c.modules := List.mem_map_of_mem listed
  have inside := List.idxOf_lt_length_of_mem (l.named moduleListed)
  obtain ⟨scope, found, scopeShows⟩ := h.tables.row?_rows l.rows_moduleRef inside
  rw [List.getElem_idxOf inside] at scopeShows
  have scopeNumber := shows.get 3 rfl
  have entryPlace := shows.get 2 rfl
  have namePlace := scopeShows.get 0 rfl
  have strings {s : String} (either : s ∈ [i.2.moduleName, i.2.entry]) : s ∈ c.strings := by
    simp only [Content.strings, List.mem_append]
    exact .inl (.inr (List.mem_flatMap.mpr ⟨_, listed, either⟩))
  rw [methodImport?, importForwarded, decoded]
  simp only [importScope, importName, scopeName, scopeNumber, found, Option.map_some, namePlace,
    entryPlace, h.string_eq formed (strings (List.mem_cons_self ..)),
    h.string_eq formed (strings (List.mem_cons_of_mem _ (List.mem_cons_self ..))),
    Option.getD_some, number]

theorem importsByMethod_eq (h : db.Holds l) (formed : c.WellFormed) {i : Nat}
    (inside : i < c.methods.length) :
    db.importsByMethod[1 + i]? = c.methods[i].mapped? := by
  have rows := h.tables.filterMap_rows l.rows_implMap (f := db.methodImport?) (g := id)
    (fun r n i listed shows => h.methodImport?_eq formed (mem_numbered listed).2 shows)
  rw [importsByMethod_eq_foldl, rows, List.map_id, getElem?_foldl_insert,
    filter_numbered _ 1 inside]
  cases c.methods[i].mapped? <;> simp

/-! ## Declarations -/

theorem declaration?_eq (h : db.Holds l) (fits : l.Fits) (formed : c.WellFormed) {i : Nat}
    (inside : i < c.methods.length) :
    db.declaration? db.attributesByMethod db.importsByMethod (1 + i) =
      c.methods[i].declaration? := by
  obtain ⟨row, found, shows⟩ := h.tables.row?_rows l.rows_methodDef inside
  have name : c.methods[i].name ∈ c.strings := by
    simp only [Content.strings, List.mem_append]
    exact .inl (.inl (.inr (List.mem_map_of_mem (List.getElem_mem inside))))
  have flags := shows.get 2 rfl
  have place := shows.get 3 rfl
  rw [Nat.add_comm] at found
  rw [declaration?, found, h.attributesByMethod_eq fits formed inside,
    h.importsByMethod_eq formed inside, Method.declaration?]
  simp only [Option.bind_eq_bind, Option.bind_some, methodFlags, methodName, place,
    h.string_eq formed name, Method.requirementOf_read, Method.nativeImport?_read flags]
  cases c.methods[i].native? with
  | none => rfl
  | some native =>
    by_cases unnamed : native.moduleName = ""
    · simp [unnamed]
    · simp [unnamed]

theorem filterMap_range' {f : Nat → Option β} {g : α → Option β} {first : Nat} {xs : List α}
    (each : ∀ i (inside : i < xs.length), f (first + i) = g xs[i]) :
    (List.range' first xs.length).filterMap f = xs.filterMap g := by
  induction xs generalizing first with
  | nil => rfl
  | cons x xs ih =>
    have here : f first = g x := each 0 (Nat.zero_lt_succ _)
    have later : ∀ i (inside : i < xs.length), f (first + 1 + i) = g xs[i] := by
      intro i inside
      rw [Nat.add_assoc, Nat.add_comm 1]
      exact each (i + 1) (Nat.succ_lt_succ inside)
    have rest := ih later
    rw [List.length_cons, List.range'_succ, List.filterMap_cons, List.filterMap_cons, here, rest]

theorem flatten_methodNumbers (first : Nat) (ts : List DefinedType) :
    (methodNumbers first ts).flatten =
      List.range' first (ts.flatMap DefinedType.methods).length := by
  induction ts generalizing first with
  | nil => rfl
  | cons t ts ih =>
    rw [methodNumbers, List.flatten_cons, ih, List.flatMap_cons, List.length_append,
      List.range'_append_1]

theorem declarations_eq (h : db.Holds l) (fits : l.Fits) (formed : c.WellFormed) :
    db.declarations = c.declarations := by
  have numbers : (methodNumbers 1 c.types).flatten = List.range' 1 c.methods.length :=
    flatten_methodNumbers 1 c.types
  have methods : c.declarations = c.methods.filterMap Method.declaration? := by
    rw [Content.declarations, Content.methods, List.flatMap_def, List.flatMap_def,
      List.filterMap_flatten, List.map_map]
    rfl
  rw [declarations, h.methodsByType_eq, methods]
  rw [List.flatMap_def, ← List.filterMap_flatten, numbers]
  apply filterMap_range'
  intro i inside
  exact h.declaration?_eq fits formed inside

end Database.Holds

end WinFloor.Metadata
