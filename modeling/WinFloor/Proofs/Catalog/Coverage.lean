import WinFloor.Proofs.Catalog.LetterCase

/-!
A declared function is found under each of its own names, and what is found there needs no lower
build (`lookup_covers`). Declarations share keys and replace one another there, but a key keeps the
highest build (`exists_known`), and the keys tried first for an own name are the function's own
(`exists_answer`). A name that differs in the letter for the character set is answered too; only a
declaration of that very name can ask for less (`exists_answer_of_stem`).
-/
namespace WinFloor

namespace SymbolStem

theorem stem?_append_letter {stem letter : String} (marks : letter = "A" ∨ letter = "W")
    (front : stem ≠ "") : stem? (stem ++ letter) = some stem := by
  have letters : stem.toList ≠ [] := by simpa using front
  rcases marks with rfl | rfl <;> simp [stem?, isCharsetLetter, letters]

end SymbolStem

namespace Catalog

open SymbolStem

variable {ds : List Declaration} {d : Declaration} {k moduleName symbol : String}

theorem exists_known (declared : d ∈ ds) (has : k ∈ keys d.moduleName d.symbol) :
    ∃ e ∈ ds, (ofList ds).entries[k]? = some e ∧ d.build ≤ e.build := by
  have listed : d ∈ declaring ds k := by simp [declaring, declared, has]
  have found : (declaring ds k).argmax Declaration.build ≠ none := by
    rw [ne_eq, List.argmax_eq_none]
    exact List.ne_nil_of_mem listed
  obtain ⟨e, highest⟩ := Option.ne_none_iff_exists'.mp found
  have member := List.argmax_mem highest
  exact ⟨e, (List.mem_filter.mp member).1, (getElem?_ofList ds k).trans highest,
    List.le_of_mem_argmax listed highest⟩

theorem key_mem_keys {m s : String} (form : m ∈ ModuleName.variants moduleName)
    (name : s ∈ SymbolStem.variants symbol) : key m s ∈ keys moduleName symbol :=
  List.mem_flatMap.mpr ⟨m, form, List.mem_map_of_mem name⟩

theorem formProbes_eq_cons (moduleName form : String) :
    formProbes moduleName form =
      key (ModuleName.normalize moduleName) form ::
        [key (ModuleName.toggleExtension (ModuleName.normalize moduleName)) form] :=
  rfl

/-- The first key tried for one form of a name is one of a declaration with this form. -/
theorem findSome?_formProbes {form : String} (declared : d ∈ ds)
    (module : ModuleName.normalize moduleName ∈ ModuleName.variants d.moduleName)
    (name : form ∈ SymbolStem.variants d.symbol) :
    ∃ e ∈ ds, (formProbes moduleName form).findSome? ((ofList ds).entries[·]?) = some e ∧
      d.build ≤ e.build := by
  obtain ⟨e, member, known, enough⟩ := exists_known declared (key_mem_keys module name)
  refine ⟨e, member, ?_, enough⟩
  rw [formProbes_eq_cons, List.findSome?_cons, known]

theorem exists_answer (declared : d ∈ ds)
    (module : ModuleName.normalize moduleName ∈ ModuleName.variants d.moduleName)
    (name : symbol ∈ SymbolStem.variants d.symbol) :
    ∃ e ∈ ds, (ofList ds).lookup moduleName symbol = some e ∧ d.build ≤ e.build := by
  obtain ⟨e, member, first, enough⟩ := findSome?_formProbes declared module name
  refine ⟨e, member, ?_, enough⟩
  rw [lookup, probes_eq_append, List.findSome?_append, first, Option.some_or]

/-- Whatever is known is one of the declarations. -/
theorem mem_of_known {e : Declaration} (known : (ofList ds).entries[k]? = some e) : e ∈ ds := by
  rw [getElem?_ofList] at known
  exact (List.mem_filter.mp (List.argmax_mem known)).1

/-- The stem of a name is tried after the name, so the answer is that for the stem unless the name
itself is known. -/
theorem exists_answer_of_stem {stem : String} (declared : d ∈ ds)
    (module : ModuleName.normalize moduleName ∈ ModuleName.variants d.moduleName)
    (name : stem ∈ SymbolStem.variants d.symbol) (taken : stem? symbol = some stem) :
    ∃ e ∈ ds, (ofList ds).lookup moduleName symbol = some e ∧
      ((∀ k ∈ formProbes moduleName symbol, ∀ o ∈ ds, k ∉ keys o.moduleName o.symbol) →
        d.build ≤ e.build) := by
  obtain ⟨e, member, found, enough⟩ := findSome?_formProbes declared module name
  have split : (ofList ds).lookup moduleName symbol =
      ((formProbes moduleName symbol).findSome? ((ofList ds).entries[·]?)).or (some e) := by
    rw [lookup, probes_eq_append, List.findSome?_append, taken, Option.toList_some,
      List.flatMap_cons, List.flatMap_nil, List.append_nil, found]
  cases own : (formProbes moduleName symbol).findSome? ((ofList ds).entries[·]?) with
  | none =>
    rw [own, Option.none_or] at split
    exact ⟨e, member, split, fun _ => enough⟩
  | some o =>
    -- The name itself is known, so some declaration has it, and no bound on its build is claimed.
    rw [own, Option.some_or] at split
    obtain ⟨k, tried, known⟩ := List.exists_of_findSome?_eq_some own
    refine ⟨o, mem_of_known known, split, ?_⟩
    intro undeclared
    have inside : k ∈ (ofList ds).entries :=
      Std.HashMap.mem_iff_isSome_getElem?.mpr (Option.isSome_iff_exists.mpr ⟨o, known⟩)
    obtain ⟨other, listed, has⟩ := List.mem_flatMap.mp ((mem_entries_ofList ds k).mp inside)
    exact absurd has (undeclared k tried other listed)

/-- A declared function is found, in a module of either form and under its name or the stem of it,
and what is found needs at least the declared build. Under the stem with another letter for the
character set it is found too, with at least this build unless that name is declared by itself for
one of the two forms of the module. -/
theorem lookup_covers (declared : d ∈ ds)
    (module : ModuleName.normalize moduleName ∈ ModuleName.variants d.moduleName) :
    (∀ q, (q = d.symbol ∨ q ≠ "" ∧ (d.symbol = q ++ "A" ∨ d.symbol = q ++ "W")) →
      ∃ e ∈ ds, (ofList ds).lookup moduleName q = some e ∧ d.build ≤ e.build) ∧
    ∀ stem letter other, stem ≠ "" → d.symbol = stem ++ letter →
      (letter = "A" ∧ other = "W" ∨ letter = "W" ∧ other = "A") →
      ∃ e ∈ ds, (ofList ds).lookup moduleName (stem ++ other) = some e ∧
        ((∀ o ∈ ds, ∀ m ∈ ModuleName.variants moduleName,
            key m (stem ++ other) ∉ keys o.moduleName o.symbol) → d.build ≤ e.build) := by
  have stemIsVariant {stem letter : String} (front : stem ≠ "")
      (ends : d.symbol = stem ++ letter) (marks : letter = "A" ∨ letter = "W") :
      stem ∈ SymbolStem.variants d.symbol := by
    rw [ends, SymbolStem.variants, stem?_append_letter marks front]
    exact List.mem_cons_of_mem _ (List.mem_singleton_self stem)
  constructor
  · rintro q (rfl | ⟨front, narrow | wide⟩)
    · exact exists_answer declared module List.mem_cons_self
    · exact exists_answer declared module (stemIsVariant front narrow (.inl rfl))
    · exact exists_answer declared module (stemIsVariant front wide (.inr rfl))
  · intro stem letter other front ends letters
    have marks : letter = "A" ∨ letter = "W" := letters.imp And.left And.left
    have otherMarks : other = "A" ∨ other = "W" := (letters.imp And.right And.right).symm
    obtain ⟨e, member, found, enough⟩ := exists_answer_of_stem declared module
      (stemIsVariant front ends marks) (stem?_append_letter otherMarks front)
    refine ⟨e, member, found, ?_⟩
    intro undeclared
    apply enough
    intro k tried o listed
    obtain ⟨m, form, rfl⟩ := List.mem_map.mp tried
    exact undeclared o listed m form

def wideCreateFile : Declaration := ⟨"kernel32.dll", "CreateFileW", ⟨9200, "windows8.0"⟩⟩

/-- Its bare name is declared for a later build, and its narrow form elsewhere. -/
def createFileForms : List Declaration :=
  [wideCreateFile, ⟨"KERNEL32", "CreateFile", ⟨10240, "windows10.0"⟩⟩,
   ⟨"user32.dll", "CreateFileA", ⟨6000, "windows6.0"⟩⟩]

theorem lookup_covers_createFile :
    wideCreateFile ∈ createFileForms ∧
    ModuleName.normalize " Kernel32 " ∈ ModuleName.variants wideCreateFile.moduleName ∧
    (∃ e ∈ createFileForms,
      (ofList createFileForms).lookup " Kernel32 " "CreateFile" = some e ∧ 9200 ≤ e.build) ∧
    ∃ e ∈ createFileForms,
      (ofList createFileForms).lookup " Kernel32 " "CreateFileA" = some e ∧ 9200 ≤ e.build := by
  have declared : wideCreateFile ∈ createFileForms := List.mem_cons_self
  have module : ModuleName.normalize " Kernel32 " ∈
      ModuleName.variants wideCreateFile.moduleName := by decide +kernel
  obtain ⟨own, marked⟩ := lookup_covers declared module
  have bare := own "CreateFile" (.inr ⟨by decide, .inr (by decide)⟩)
  obtain ⟨e, member, found, enough⟩ :=
    marked "CreateFile" "W" "A" (by decide) (by decide) (.inr ⟨rfl, rfl⟩)
  exact ⟨declared, module, bare, e, member, found, enough (by decide +kernel)⟩

end Catalog

end WinFloor
