import WinFloor.Proofs.Catalog.Lookup
import WinFloor.Proofs.Text.Lowercase

/-!
How far a catalog answers alike for a function whose module and name are spelled in other letter
cases. Keys have no case (`key_eq_of_lowerAscii`), but only a capital letter marks a character set,
so the stem of a name is tried for some of its spellings and not for others
(`lookup_marked_only`). Spellings that are marked alike are answered alike
(`lookup_eq_of_lowerAscii`), and an answer that a spelling without a mark gets, all others get
(`lookup_letterCase`).
-/
namespace WinFloor

open Text

namespace SymbolStem

/-- Whether the name ends in a character set letter that can be taken off. -/
def isMarked (symbol : String) : Bool := (stem? symbol).isSome

theorem toList_of_stem? {symbol stem : String} (h : stem? symbol = some stem) :
    stem.toList = symbol.toList.dropLast := by
  rw [stem?.eq_def] at h
  split at h
  next c rest reversed =>
    split at h
    next =>
      cases h
      rw [← List.reverse_reverse symbol.toList, reversed]
      simp
    next => cases h
  next => cases h

theorem stem_lowerAscii {s₁ s₂ t₁ t₂ : String} (symbols : lowerAscii s₁ = lowerAscii s₂)
    (first : stem? s₁ = some t₁) (second : stem? s₂ = some t₂) : lowerAscii t₁ = lowerAscii t₂ := by
  apply String.toList_inj.mp
  have shorter := congrArg (fun s : String => s.toList.dropLast) symbols
  simp only [toList_lowerAscii, ← List.map_dropLast] at shorter
  rw [toList_lowerAscii, toList_lowerAscii, toList_of_stem? first, toList_of_stem? second, shorter]

end SymbolStem

namespace Catalog

open SymbolStem

/-- The keys tried for one form of a name. -/
def formProbes (moduleName form : String) : List String :=
  (ModuleName.variants moduleName).map (key · form)

theorem probes_eq_append (moduleName symbol : String) :
    probes moduleName symbol =
      formProbes moduleName symbol ++ (stem? symbol).toList.flatMap (formProbes moduleName) :=
  rfl

theorem key_eq_of_lowerAscii (moduleName : String) {s₁ s₂ : String}
    (symbols : lowerAscii s₁ = lowerAscii s₂) : key moduleName s₁ = key moduleName s₂ := by
  apply lowercase_eq_of_lowerAscii
  rw [lowerAscii_append, symbols, ← lowerAscii_append]

section
variable {m₁ m₂ s₁ s₂ : String}

theorem formProbes_eq_of_lowerAscii (modules : lowerAscii m₁ = lowerAscii m₂)
    (symbols : lowerAscii s₁ = lowerAscii s₂) : formProbes m₁ s₁ = formProbes m₂ s₂ := by
  have same : ModuleName.variants m₁ = ModuleName.variants m₂ := by
    rw [ModuleName.variants, ModuleName.normalize_eq_of_lowerAscii modules, ModuleName.variants]
  rw [formProbes, same]
  apply List.map_congr_left
  intro m _
  exact key_eq_of_lowerAscii m symbols

theorem stemProbes_eq_of_lowerAscii (modules : lowerAscii m₁ = lowerAscii m₂)
    (symbols : lowerAscii s₁ = lowerAscii s₂) (marked : isMarked s₁ = isMarked s₂) :
    (stem? s₁).toList.flatMap (formProbes m₁) = (stem? s₂).toList.flatMap (formProbes m₂) := by
  rw [isMarked, isMarked] at marked
  cases first : stem? s₁ with
  | none =>
    rw [first, Option.isSome_none, eq_comm, Option.isSome_eq_false_iff, Option.isNone_iff_eq_none]
      at marked
    simp only [marked, Option.toList_none, List.flatMap_nil]
  | some t₁ =>
    rw [first, Option.isSome_some, eq_comm] at marked
    obtain ⟨t₂, second⟩ := Option.isSome_iff_exists.mp marked
    have stems := stem_lowerAscii symbols first second
    simp only [second, Option.toList_some, List.flatMap_cons, List.flatMap_nil,
      formProbes_eq_of_lowerAscii modules stems]

/-- Spellings that are marked alike are answered alike. -/
theorem lookup_eq_of_lowerAscii (c : Catalog) (modules : lowerAscii m₁ = lowerAscii m₂)
    (symbols : lowerAscii s₁ = lowerAscii s₂) (marked : isMarked s₁ = isMarked s₂) :
    c.lookup m₁ s₁ = c.lookup m₂ s₂ := by
  rw [lookup, probes_eq_append, formProbes_eq_of_lowerAscii modules symbols,
    stemProbes_eq_of_lowerAscii modules symbols marked, ← probes_eq_append, lookup]

/-- The keys for a spelling without a mark are the first to be tried for any other spelling. -/
theorem lookup_eq_some_of_unmarked (c : Catalog) (modules : lowerAscii m₁ = lowerAscii m₂)
    (symbols : lowerAscii s₁ = lowerAscii s₂) (unmarked : isMarked s₂ = false) {d : Declaration}
    (found : c.lookup m₂ s₂ = some d) : c.lookup m₁ s₁ = some d := by
  rw [isMarked, Option.isSome_eq_false_iff, Option.isNone_iff_eq_none] at unmarked
  rw [lookup, probes_eq_append, unmarked, Option.toList_none, List.flatMap_nil, List.append_nil,
    ← formProbes_eq_of_lowerAscii modules symbols] at found
  rw [lookup, probes_eq_append, List.findSome?_append, found, Option.some_or]

/-- In other letter cases a function is answered alike, as long as both spellings of its name end
in a capital letter for a character set or neither does. Without the capital letter the answer may
be missing, but it is no other one. -/
theorem lookup_letterCase (ds : List Declaration) (modules : lowerAscii m₁ = lowerAscii m₂)
    (symbols : lowerAscii s₁ = lowerAscii s₂) :
    (isMarked s₁ = isMarked s₂ → (ofList ds).lookup m₁ s₁ = (ofList ds).lookup m₂ s₂) ∧
    (isMarked s₂ = false →
      ∀ d, (ofList ds).lookup m₂ s₂ = some d → (ofList ds).lookup m₁ s₁ = some d) := by
  constructor
  · exact lookup_eq_of_lowerAscii _ modules symbols
  · intro unmarked d found
    exact lookup_eq_some_of_unmarked _ modules symbols unmarked found

end

def createFile : Declaration := ⟨"kernel32.dll", "CreateFile", ⟨7600, "windows6.1"⟩⟩

theorem lookup_letterCase_createFile :
    lowerAscii "KERNEL32.DLL" = lowerAscii "kernel32.dll" ∧
    lowerAscii "CREATEFILEW" = lowerAscii "CreateFileW" ∧
    isMarked "CREATEFILEW" = isMarked "CreateFileW" ∧
    (ofList [createFile]).lookup "KERNEL32.DLL" "CREATEFILEW" =
      (ofList [createFile]).lookup "kernel32.dll" "CreateFileW" := by
  have modules : lowerAscii "KERNEL32.DLL" = lowerAscii "kernel32.dll" := by decide
  have symbols : lowerAscii "CREATEFILEW" = lowerAscii "CreateFileW" := by decide
  have marked : isMarked "CREATEFILEW" = isMarked "CreateFileW" := by decide
  exact ⟨modules, symbols, marked, (lookup_letterCase [createFile] modules symbols).1 marked⟩

/-- The stem of a name is not tried where the letter for the character set is a small one. -/
theorem lookup_marked_only :
    lowerAscii "CreateFileW" = lowerAscii "createfilew" ∧
    (ofList [createFile]).lookup "kernel32.dll" "CreateFileW" = some createFile ∧
    (ofList [createFile]).lookup "kernel32.dll" "createfilew" = none := by
  rw [lookup_ofList, lookup_ofList]
  decide +kernel

end Catalog

end WinFloor
