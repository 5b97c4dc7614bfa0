import Mathlib.Data.List.MinMax
import WinFloor.Metadata.Native

/-!
What metadata says about native functions, however it is written: types with their methods, and the
attributes of these. `Content.declarations` are the native functions among the methods. The
attributes of a method, once read, give its requirement (`requirementOf_read`) and its import
(`nativeImport?_read`).
-/
namespace WinFloor.Metadata

open Platform

/-- What an attribute says about its method. -/
inductive Remark
  | nativeImport (moduleName : String) (entryPoint : Option String)
  | platform (text : String)
  deriving DecidableEq, Repr

namespace Remark

def said : Remark → Attribute
  | nativeImport moduleName entryPoint => .nativeImport moduleName entryPoint
  | platform text => .platform text

/-- The name of the type of such attributes. -/
def typeName : Remark → String
  | nativeImport .. => "DllImportAttribute"
  | platform _ => "SupportedOSPlatformAttribute"

end Remark

/-- How the constructor of an attribute is given: as a member of a type that is referred to by name
or of one of the types defined here, or as the method at an index of a type defined here. -/
inductive Constructor
  | reference (namespaceName : String)
  | definition (type : Nat)
  | method (type index : Nat)
  deriving DecidableEq, Repr

structure MethodAttribute where
  constructor : Constructor
  remark : Remark
  deriving DecidableEq, Repr

structure Method where
  name : String
  flags : UInt16
  mapped? : Option NativeImport
  attributes : List MethodAttribute
  deriving DecidableEq, Repr

structure DefinedType where
  namespaceName : String
  name : String
  methods : List Method
  deriving DecidableEq, Repr

structure Content where
  types : List DefinedType
  deriving DecidableEq, Repr

namespace Method

/-- The import of the first attribute that gives one. -/
def attributeImport? (m : Method) : Option NativeImport :=
  m.attributes.findSome? fun a =>
    match a.remark with
    | .nativeImport moduleName entryPoint => some ⟨moduleName, entryPoint.getD ""⟩
    | .platform _ => none

/-- The import of a method that is flagged to have one comes before those of attributes. -/
def native? (m : Method) : Option NativeImport :=
  (if m.flags.toNat.testBit 13 then m.mapped? else none).or m.attributeImport?

def requirements (m : Method) : List Requirement :=
  m.attributes.filterMap fun a =>
    match a.remark with
    | .nativeImport .. => none
    | .platform text => some ⟨Platform.build text, text⟩

/-- The first of the highest requirements, those that ask for no build set aside. -/
def requirement (m : Method) : Requirement :=
  ((m.requirements.filter (0 < ·.build)).argmax Requirement.build).getD ⟨0, ""⟩

def declaration? (m : Method) : Option Declaration :=
  (m.native?.filter (·.moduleName ≠ "")).map fun i =>
    { moduleName := i.moduleName
      symbol := if i.entry = "" then m.name else i.entry
      requirement := m.requirement }

end Method

namespace Content

def methods (c : Content) : List Method := c.types.flatMap DefinedType.methods

def attributes (c : Content) : List MethodAttribute := c.methods.flatMap Method.attributes

def declarations (c : Content) : List Declaration :=
  c.types.flatMap fun t => t.methods.filterMap Method.declaration?

end Content

namespace Method

theorem foldl_requirements (rs : List Requirement) :
    rs.foldl (fun best r => if best.build < r.build then r else best) .none =
      ((rs.filter (0 < ·.build)).argmax Requirement.build).getD .none := by
  induction rs using List.reverseRecOn with
  | nil => rfl
  | append_singleton rs r ih =>
    rw [List.foldl_append, List.foldl_cons, List.foldl_nil, ih, List.filter_append]
    by_cases asks : 0 < r.build
    · rw [List.filter_cons_of_pos (by simpa using asks), List.filter_nil, List.argmax_concat]
      cases (rs.filter (0 < ·.build)).argmax Requirement.build with
      | none => exact if_pos asks
      | some best =>
        by_cases higher : best.build < r.build
        · simp [higher]
        · simp [higher]
    · have zero : r.build = 0 := by omega
      rw [List.filter_cons_of_neg (by simpa using asks), List.filter_nil, List.append_nil, zero,
        if_neg (Nat.not_lt_zero _)]

/-- The attributes of a method, as they are read. -/
def read (m : Method) : List Attribute := m.attributes.map (·.remark.said)

theorem requirementOf_read (m : Method) : Database.requirementOf m.read = m.requirement := by
  have nothing : ⟨0, ""⟩ = Requirement.none := rfl
  rw [requirement, nothing, ← foldl_requirements, requirements, List.foldl_filterMap, read,
    Database.requirementOf, List.foldl_map]
  congr 1
  funext best a
  cases a.remark <;> rfl

theorem findSome?_read (m : Method) :
    (m.read.findSome? fun
      | .nativeImport moduleName entryPoint => some ⟨moduleName, entryPoint.getD ""⟩
      | _ => none) = m.attributeImport? := by
  rw [read, attributeImport?, List.findSome?_map]
  congr 1
  funext a
  simp only [Function.comp]
  cases a.remark <;> rfl

theorem nativeImport?_read {m : Method} {flags : UInt32} (same : flags.toNat = m.flags.toNat) :
    Database.nativeImport? flags m.mapped? m.read = m.native? := by
  rw [native?, ← same, ← m.findSome?_read, Database.nativeImport?.eq_def]
  have bit : flags.toNat.testBit 13 = flags.toNat.testBit Database.importFlag := rfl
  rw [bit]
  cases flags.toNat.testBit Database.importFlag with
  | false => rfl
  | true => cases m.mapped? <;> rfl

end Method

end WinFloor.Metadata
