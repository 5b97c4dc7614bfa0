import WinFloor.Catalog
import WinFloor.Proofs.Metadata.Content
import WinFloor.Proofs.Metadata.Joins

/-!
The declarations of any database, told method by method from the rows themselves, wherever these
lead and however often they repeat (`Database.scanned?`). For one method all import rows and all
attribute rows are gone through: the last import row counts if the method is flagged, else the first
attribute that imports, and of the platforms the first that asks for the most. What the maps collect
comes to the same (`declarations_eq_scan`).
-/
namespace WinFloor.Metadata

open Platform

/-- The method that a reference leads to, if it leads to one. -/
def method? : Option (Table × UInt32) → Option Nat
  | some (.methodDef, m) => some m.toNat
  | _ => none

namespace Attribute

def import? : Attribute → Option NativeImport
  | nativeImport moduleName entryPoint => some ⟨moduleName, entryPoint.getD ""⟩
  | platform _ | other => none

def requirement? : Attribute → Option Requirement
  | platform text => some (.ofPlatform text)
  | nativeImport .. | other => none

end Attribute

namespace Database

variable (db : Database)

/-- The type that a method belongs to: the last one that lists it. -/
def owner? (m : Nat) : Option Nat :=
  ((db.methodsByType.zipIdx 1).filter (m ∈ ·.1)).getLast?.map Prod.snd

/-! ## One method -/

def importRows (m : Nat) : List (Nat × Row) :=
  (db.tables.rows .implMap).filter fun (_, row) =>
    method? (CodedIndex.memberForwarded.decode (row.get importForwarded)) = some m

def attributeRows (m : Nat) : List (Nat × Row) :=
  (db.tables.rows .customAttribute).filter fun (_, row) =>
    method? (CodedIndex.hasCustomAttribute.decode (row.get attributeParent)) = some m

/-- What an import row names. A module that is not there has no name. -/
def imported (row : Row) : NativeImport where
  moduleName :=
    match db.tables.row? .moduleRef (row.get importScope).toNat with
    | some scope => db.strings.get (scope.get scopeName).toNat
    | none => ""
  entry := db.strings.get (row.get importName).toNat

def said (row : Row) : Attribute :=
  db.attributeOf db.methodOwners (row.get attributeConstructor) (row.get attributeValueColumn)

/-- What the attribute rows of a method say, in their order. -/
def remarks (m : Nat) : List Attribute := (db.attributeRows m).map fun (_, row) => db.said row

/-- The last import row of a flagged method gives its import; without one the first attribute does
that gives any. -/
def native? (m : Nat) (flags : UInt32) : Option NativeImport :=
  (if flags.toNat.testBit 13 then (db.importRows m).getLast?.map fun (_, row) => db.imported row
    else none).or ((db.remarks m).filterMap Attribute.import?).head?

/-- The first of the highest requirements, those that ask for no build set aside. -/
def requirement (m : Nat) : Requirement :=
  ((((db.remarks m).filterMap Attribute.requirement?).filter (0 < ·.build)).argmax
    Requirement.build).getD .none

def scanned? (m : Nat) : Option Declaration :=
  (db.tables.row? .methodDef m).bind fun row =>
    ((db.native? m (row.get methodFlags)).filter (·.moduleName ≠ "")).map fun i =>
      { moduleName := i.moduleName
        symbol := if i.entry = "" then db.strings.get (row.get methodName).toNat else i.entry
        requirement := db.requirement m }

end Database

/-! ## What is collected -/

/-- Collecting under a number and looking there comes to picking out what has the number. -/
theorem filter_filterMap_snd {give : α → Option (Nat × β)} {has : α → Prop} [DecidablePred has]
    {value : α → β} {n : Nat}
    (each : ∀ a, (give a).filter (·.1 = n) = if has a then some (n, value a) else none)
    (xs : List α) :
    ((xs.filterMap give).filter (·.1 = n)).map Prod.snd = (xs.filter (has ·)).map value := by
  rw [List.filter_filterMap, List.map_filterMap, ← List.filterMap_eq_map, List.filterMap_filter]
  congr 1
  funext a
  rw [each]
  by_cases holds : has a <;> simp [holds]

theorem getElem?_foldl_owners (types : List (List Nat × Nat)) (owners : Std.HashMap Nat Nat)
    (m : Nat) :
    (types.foldl (fun owners (methods, owner) =>
        methods.foldl (fun owners m => owners.insert m owner) owners) owners)[m]? =
      ((types.filter (m ∈ ·.1)).getLast?.map Prod.snd).or owners[m]? := by
  induction types generalizing owners with
  | nil => rfl
  | cons type types ih =>
    rw [List.foldl_cons, ih, getElem?_foldl_owner]
    by_cases listed : m ∈ type.1
    · rw [if_pos listed, List.filter_cons_of_pos (by simpa using listed), List.getLast?_cons]
      cases (types.filter (m ∈ ·.1)).getLast? <;> rfl
    · rw [if_neg listed, List.filter_cons_of_neg (by simpa using listed)]

namespace Database

variable (db : Database)

theorem getElem?_methodOwners (m : Nat) : db.methodOwners[m]? = db.owner? m := by
  rw [methodOwners, getElem?_foldl_owners, owner?, Std.HashMap.getElem?_empty, Option.or_none]

theorem methodImport?_eq (row : Row) :
    db.methodImport? row =
      (method? (CodedIndex.memberForwarded.decode (row.get importForwarded))).map
        (·, db.imported row) := by
  rw [methodImport?]
  split
  next n decoded =>
    rw [decoded, method?, Option.map_some, imported]
    cases db.tables.row? .moduleRef (row.get importScope).toNat <;> rfl
  next other => rw [method?.eq_2 _ other, Option.map_none]

theorem methodAttribute?_eq (row : Row) :
    db.methodAttribute? db.methodOwners row =
      (method? (CodedIndex.hasCustomAttribute.decode (row.get attributeParent))).bind fun m =>
        if db.said row = .other then none else some (m, db.said row) := by
  rw [methodAttribute?]
  split
  next n decoded =>
    rw [decoded, method?, Option.bind_some, ← said]
    cases db.said row <;> rfl
  next other => rw [method?.eq_2 _ other, Option.bind_none]

theorem getElem?_importsByMethod (m : Nat) :
    db.importsByMethod[m]? = (db.importRows m).getLast?.map fun r => db.imported r.2 := by
  have each (r : Nat × Row) : (db.methodImport? r.2).filter (·.1 = m) =
      if method? (CodedIndex.memberForwarded.decode (r.2.get importForwarded)) = some m then
        some (m, db.imported r.2) else none := by
    rw [methodImport?_eq]
    cases method? (CodedIndex.memberForwarded.decode (r.2.get importForwarded)) with
    | none => rfl
    | some n => by_cases here : n = m <;> simp [here]
  rw [importsByMethod_eq_foldl, getElem?_foldl_insert, filter_filterMap_snd each,
    Std.HashMap.getElem?_empty, Option.or_none, List.getLast?_map]
  rfl

/-- Attributes that say nothing are not collected. -/
theorem toList_attributesByMethod (m : Nat) :
    (db.attributesByMethod.getD m #[]).toList = (db.remarks m).filter (· ≠ .other) := by
  have each (r : Nat × Row) : (db.methodAttribute? db.methodOwners r.2).filter (·.1 = m) =
      if method? (CodedIndex.hasCustomAttribute.decode (r.2.get attributeParent)) = some m ∧
          db.said r.2 ≠ .other then
        some (m, db.said r.2) else none := by
    rw [methodAttribute?_eq]
    cases method? (CodedIndex.hasCustomAttribute.decode (r.2.get attributeParent)) with
    | none => simp
    | some n =>
      by_cases here : n = m <;> by_cases quiet : db.said r.2 = .other <;> simp [here, quiet]
  rw [attributesByMethod_eq_foldl, getD_foldl_push, filter_filterMap_snd each, remarks,
    attributeRows, List.filter_map, List.filter_filter]
  simp [and_comm]

/-! ## What is made of it -/

theorem filterMap_ne_other {f : Attribute → Option β} (nothing : f .other = none)
    (as : List Attribute) : (as.filter (· ≠ .other)).filterMap f = as.filterMap f := by
  rw [List.filterMap_filter]
  congr 1
  funext a
  by_cases quiet : a = .other <;> simp [quiet, nothing]

theorem findSome?_import {give : Attribute → Option NativeImport}
    (same : ∀ a, give a = a.import?) (as : List Attribute) :
    (as.filter (· ≠ .other)).findSome? give = (as.filterMap Attribute.import?).head? := by
  obtain rfl : give = Attribute.import? := funext same
  rw [← filterMap_ne_other rfl, List.head?_filterMap]

theorem nativeImport?_eq (flags : UInt32) (row : Option NativeImport) (as : List Attribute) :
    nativeImport? flags row (as.filter (· ≠ .other)) =
      (if flags.toNat.testBit 13 then row else none).or (as.filterMap Attribute.import?).head? := by
  rw [nativeImport?.eq_def, importFlag]
  cases flags.toNat.testBit 13 with
  | false => exact findSome?_import (fun a => by cases a <;> rfl) as
  | true =>
    cases row with
    | some i => rfl
    | none => exact findSome?_import (fun a => by cases a <;> rfl) as

theorem requirementOf_eq (as : List Attribute) :
    requirementOf (as.filter (· ≠ .other)) =
      (((as.filterMap Attribute.requirement?).filter (0 < ·.build)).argmax
        Requirement.build).getD .none := by
  rw [← Method.foldl_requirements, ← filterMap_ne_other rfl, List.foldl_filterMap, requirementOf]
  congr 1
  funext best a
  cases a <;> rfl

theorem declaration?_eq (m : Nat) :
    db.declaration? db.attributesByMethod db.importsByMethod m = db.scanned? m := by
  rw [declaration?, scanned?]
  cases db.tables.row? .methodDef m with
  | none => rfl
  | some row =>
    simp only [Option.bind_eq_bind, Option.bind_some, toList_attributesByMethod,
      getElem?_importsByMethod, requirementOf_eq, nativeImport?_eq]
    rw [← native?, ← requirement]
    cases db.native? m (row.get methodFlags) with
    | none => rfl
    | some i => by_cases unnamed : i.moduleName = "" <;> simp [unnamed]

theorem declarations_eq_flatMap :
    db.declarations = db.methodsByType.flatMap fun methods => methods.filterMap db.scanned? := by
  rw [declarations]
  congr 1
  funext methods
  congr 1
  funext m
  exact db.declaration?_eq m

/-- The methods of each type are gone through in order, and the catalog is told what the rows of a
method say. A constructor that is a method itself belongs to the last type that lists it. -/
theorem declarations_eq_scan :
    db.declarations = db.methodsByType.flatMap (fun methods => methods.filterMap db.scanned?) ∧
    Catalog.ofList db.declarations =
      db.methodsByType.foldl (fun catalog methods =>
        methods.foldl (fun catalog m => (db.scanned? m).elim catalog catalog.insert) catalog)
          Catalog.empty ∧
    ∀ m, db.methodOwners[m]? = db.owner? m := by
  refine ⟨db.declarations_eq_flatMap, ?_, db.getElem?_methodOwners⟩
  rw [db.declarations_eq_flatMap, Catalog.ofList, List.foldl_flatMap]
  congr 1
  funext catalog methods
  rw [List.foldl_filterMap]
  congr 1
  funext catalog m
  cases db.scanned? m <;> rfl

end Database

end WinFloor.Metadata
