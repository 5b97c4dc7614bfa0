import WinFloor.Program
import WinFloor.Proofs.Metadata.Declared

/-!
Metadata that was written from content and is loaded gives the catalog of what the content declares
(`catalogOf_octets`), whichever layout was chosen.
-/
namespace WinFloor.Metadata

namespace Layout

/-- Writing content and loading it gives the catalog of its declarations. -/
theorem catalogOf_octets {c : Content} (formed : c.WellFormed) {l : Layout c} (fits : l.Fits) :
    Program.catalogOf l.octets.toArray = .ok (Catalog.ofList c.declarations) := by
  obtain ⟨db, read, holds⟩ := read_octets fits
  have declared := holds.declarations_eq fits formed
  rw [Program.catalogOf, l.locate_octets]
  simp only [bind, Except.bind, read, declared]
  rfl

/-- A layout that any content has: everything in the order of the content, and nothing else. -/
def packed (c : Content) (heapFlags : UInt8) : Layout c where
  heapFlags := heapFlags
  strings := .packed zeroEnded [0] c.strings
  blobs := .packed sizedOctets [0] c.values
  references := c.references
  parents := c.parents
  modules := c.modules
  fill _ _ _ := 0
  others _ := none
  head := ⟨0, 2, 0, 1, 0, 0⟩
  tablePadding := []
  root := ⟨1, 1, 0, 0⟩
  version := [0x76, 0x34, 0, 0]
  parts := [.tables false, .strings, .blobs]
  referenced := List.Subset.refl _
  parented := List.Subset.refl _
  named := List.Subset.refl _
  complete := by decide
  apart := by simp [StreamPart.Apart]

end Layout

/-- A flagged import and two by attribute, and attributes of a type that is defined here. The import
of the last method does not count, for it is not flagged. -/
def fileFunctions : Content where
  types :=
    [{ namespaceName := "Windows", name := "SupportedOSPlatformAttribute"
       methods := [⟨".ctor", 0, none, []⟩] },
     { namespaceName := "Windows", name := "Functions"
       methods :=
        [{ name := "OpenFile", flags := 0x2016, mapped? := some ⟨"KERNEL32.dll", "CreateFileW"⟩
           attributes :=
            [⟨.method 0 0, .platform "windows6.1"⟩, ⟨.definition 0, .platform "windows8.0"⟩] },
         { name := "CopyFile2", flags := 0x16, mapped? := none
           attributes :=
            [⟨.reference "System", .nativeImport "KERNEL32.dll" none⟩,
             ⟨.reference "Windows", .platform "windows10.0.10240"⟩] },
         { name := "FileVersion", flags := 0x16, mapped? := none
           attributes :=
            [⟨.reference "System", .nativeImport "version.dll" (some "GetFileVersionInfoW")⟩] },
         { name := "Beep", flags := 0x16, mapped? := some ⟨"KERNEL32.dll", ""⟩
           attributes := [] }] }]

theorem catalogOf_fileFunctions :
    fileFunctions.WellFormed ∧ (Layout.packed fileFunctions 1).Fits ∧
    Program.catalogOf (Layout.packed fileFunctions 1).octets.toArray =
      .ok (Catalog.ofList
        [⟨"KERNEL32.dll", "CreateFileW", ⟨9200, "windows8.0"⟩⟩,
         ⟨"KERNEL32.dll", "CopyFile2", ⟨10240, "windows10.0.10240"⟩⟩,
         ⟨"version.dll", "GetFileVersionInfoW", ⟨0, ""⟩⟩]) := by
  have formed : fileFunctions.WellFormed := ⟨by decide +kernel, by decide +kernel⟩
  have tables : (Layout.packed fileFunctions 1).tables.Fits := by
    constructor
    · intro t
      cases t <;> decide +kernel
    · intro t
      cases t <;> decide +kernel
  have fits : (Layout.packed fileFunctions 1).Fits :=
    ⟨tables, by decide +kernel, by decide +kernel, by decide, by decide⟩
  refine ⟨formed, fits, ?_⟩
  rw [Layout.catalogOf_octets formed fits]
  apply congrArg (fun ds => Except.ok (Catalog.ofList ds))
  decide +kernel

end WinFloor.Metadata
