import Mathlib.Data.List.Dedup
import Mathlib.Data.List.MinMax
import WinFloor.Catalog

/-!
What a catalog answers, told from the list of declarations it was made of.

* `getElem?_ofList`: behind a key stands the first of the declarations that need the most, among
  those which have the key;
* `ofList_answers`: a function is answered from the first of its spellings that any declaration has;
* `size_ofList`: there are as many keys as the declarations have between them.

The keys of a declaration are its `spellings` (`keys_eq`), and the keys that are tried for a
function are the same ones in another order (`probes_eq`).
-/
namespace WinFloor.Catalog

/-- The two forms of a module: without blanks around it and in lower case, and with the extension
added to this or taken from it. -/
def moduleForms (moduleName : String) : List String :=
  [ModuleName.normalize moduleName, ModuleName.toggleExtension (ModuleName.normalize moduleName)]

/-- The name of a function, and what stands before its character set letter if it has one. -/
def symbolForms (symbol : String) : List String :=
  symbol :: (SymbolStem.stem? symbol).toList

def spelling (form name : String) : String :=
  Text.lowercase (form ++ "!" ++ name)

/-- The spellings a function is declared under. -/
def spellings (moduleName symbol : String) : List String :=
  (moduleForms moduleName).flatMap fun form => (symbolForms symbol).map (spelling form)

/-- The spellings that are tried for a function, each name in both forms of the module before the
next name. -/
def tried (moduleName symbol : String) : List String :=
  (symbolForms symbol).flatMap fun name => (moduleForms moduleName).map (spelling · name)

theorem keys_eq (moduleName symbol : String) :
    keys moduleName symbol = spellings moduleName symbol :=
  rfl

theorem probes_eq (moduleName symbol : String) :
    probes moduleName symbol = tried moduleName symbol :=
  rfl

/-- The declarations that are known under a key, in their order. -/
def declaring (ds : List Declaration) (key : String) : List Declaration :=
  ds.filter fun d => key ∈ keys d.moduleName d.symbol

/-- What is known under a key once `d` has been recorded there. -/
def preferred (known : Option Declaration) (d : Declaration) : Option Declaration :=
  known.elim (some d) fun known => some (if known.build < d.build then d else known)

theorem preferred_idem (known : Option Declaration) (d : Declaration) :
    preferred (preferred known d) d = preferred known d := by
  cases known with
  | none => simp [preferred]
  | some known => by_cases higher : known.build < d.build <;> simp [preferred, higher]

theorem getElem?_record_self (entries : Std.HashMap String Declaration) (d : Declaration)
    (key : String) : (record entries d key)[key]? = preferred entries[key]? d := by
  rw [getElem?_record]
  cases entries[key]? <;> simp [preferred]

theorem getElem?_record_other (entries : Std.HashMap String Declaration) (d : Declaration)
    {key other : String} (h : key ≠ other) : (record entries d key)[other]? = entries[other]? := by
  rw [getElem?_record]
  simp [h]

/-- A declaration may have one key twice; the second time changes nothing. -/
theorem getElem?_foldl_record (ks : List String) (entries : Std.HashMap String Declaration)
    (d : Declaration) (key : String) :
    (ks.foldl (record · d) entries)[key]? =
      if key ∈ ks then preferred entries[key]? d else entries[key]? := by
  induction ks generalizing entries with
  | nil => simp
  | cons first ks ih =>
    rw [List.foldl_cons, ih]
    by_cases same : first = key
    · subst same
      simp [getElem?_record_self, preferred_idem]
    · have other : key ≠ first := Ne.symm same
      simp [getElem?_record_other entries d same, other]

theorem getElem?_insert (c : Catalog) (d : Declaration) (key : String) :
    (c.insert d).entries[key]? =
      if key ∈ keys d.moduleName d.symbol then preferred c.entries[key]? d
      else c.entries[key]? :=
  getElem?_foldl_record _ _ _ _

theorem ofList_concat (ds : List Declaration) (d : Declaration) :
    ofList (ds ++ [d]) = (ofList ds).insert d := by
  simp [ofList]

theorem argmax_concat_eq_preferred (ds : List Declaration) (d : Declaration) :
    (ds ++ [d]).argmax Declaration.build = preferred (ds.argmax Declaration.build) d := by
  rw [List.argmax_concat]
  cases ds.argmax Declaration.build with
  | none => rfl
  | some known => by_cases higher : known.build < d.build <;> simp [preferred, higher]

/-- The invariant of the insertions, key by key. -/
theorem getElem?_ofList (ds : List Declaration) (key : String) :
    (ofList ds).entries[key]? = (declaring ds key).argmax Declaration.build := by
  induction ds using List.reverseRecOn with
  | nil => simp [ofList, empty, declaring]
  | append_singleton ds d ih =>
    rw [ofList_concat, getElem?_insert, ih]
    by_cases has : key ∈ keys d.moduleName d.symbol
    · have grown : declaring (ds ++ [d]) key = declaring ds key ++ [d] := by
        simp [declaring, has]
      rw [grown, argmax_concat_eq_preferred, if_pos has]
    · have same : declaring (ds ++ [d]) key = declaring ds key := by
        simp [declaring, has]
      rw [same, if_neg has]

theorem mem_entries_ofList (ds : List Declaration) (key : String) :
    key ∈ (ofList ds).entries ↔ key ∈ ds.flatMap fun d => keys d.moduleName d.symbol := by
  rw [Std.HashMap.mem_iff_isSome_getElem?, getElem?_ofList, Option.isSome_iff_ne_none, ne_eq,
    List.argmax_eq_none, List.mem_flatMap]
  simp [declaring]

/-- Both lists of keys are without repetition and have the same members. -/
theorem size_ofList (ds : List Declaration) :
    (ofList ds).size = (ds.flatMap fun d => keys d.moduleName d.symbol).dedup.length := by
  have same : (ofList ds).entries.keys.Perm
      (ds.flatMap fun d => keys d.moduleName d.symbol).dedup := by
    apply (List.perm_ext_iff_of_nodup Std.HashMap.nodup_keys (List.nodup_dedup _)).mpr
    intro key
    rw [Std.HashMap.mem_keys, mem_entries_ofList, List.mem_dedup]
  rw [size, ← Std.HashMap.length_keys, same.length_eq]

theorem keys_ne_nil (moduleName symbol : String) : keys moduleName symbol ≠ [] := by
  simp [keys, ModuleName.variants, SymbolStem.variants]

theorem isEmpty_ofList (ds : List Declaration) : (ofList ds).isEmpty = true ↔ ds = [] := by
  rw [isEmpty, Std.HashMap.isEmpty_iff_forall_not_mem]
  simp only [mem_entries_ofList, List.mem_flatMap, not_exists, not_and]
  constructor
  · intro none
    cases ds with
    | nil => rfl
    | cons d ds =>
      obtain ⟨key, has⟩ := List.exists_mem_of_ne_nil _ (keys_ne_nil d.moduleName d.symbol)
      exact absurd has (none key d List.mem_cons_self)
  · rintro rfl
    simp

theorem lookup_ofList (ds : List Declaration) (moduleName symbol : String) :
    (ofList ds).lookup moduleName symbol =
      (probes moduleName symbol).findSome? fun probe =>
        (declaring ds probe).argmax Declaration.build := by
  rw [lookup]
  congr 1
  funext probe
  exact getElem?_ofList ds probe

/-- A catalog answers for a function from the first of its spellings that a declaration has: with
the earliest of the declarations which need the most, among all that have this spelling. It has as
many keys as there are spellings of its declarations. -/
theorem ofList_answers (ds : List Declaration) :
    (∀ moduleName symbol : String,
      (ofList ds).lookup moduleName symbol =
        (tried moduleName symbol).findSome? fun spelled =>
          (ds.filter fun d => spelled ∈ spellings d.moduleName d.symbol).argmax
            Declaration.build) ∧
    (ofList ds).size = (ds.flatMap fun d => spellings d.moduleName d.symbol).dedup.length ∧
    (ofList ds).declared = ds.length ∧
    ((ofList ds).isEmpty = true ↔ ds = []) := by
  simp only [← keys_eq, ← probes_eq]
  exact ⟨lookup_ofList ds, size_ofList ds, declared_ofList ds, isEmpty_ofList ds⟩

/-- One function, declared under its name and under the one for wide characters. -/
def textOutput : List Declaration :=
  [⟨"GDI32", "TextOutW", ⟨7600, "windows6.1"⟩⟩,
   ⟨" Gdi32.DLL", "textout", ⟨9200, "windows8.0"⟩⟩,
   ⟨"gdi32.dll", "TEXTOUT", ⟨9200, "windows6.2"⟩⟩]

theorem ofList_answers_textOutput :
    (ofList textOutput).lookup "gdi32.dll" "textOUTw" = textOutput[0]? ∧
    (ofList textOutput).lookup "Gdi32 " "TextOut" = textOutput[1]? ∧
    (ofList textOutput).lookup "gdi32.dll" "TextOutA" = textOutput[1]? ∧
    (ofList textOutput).lookup "gdi32.dll" "TextOuta" = none ∧
    (ofList textOutput).size = 4 ∧ (ofList textOutput).declared = 3 := by
  obtain ⟨answers, size, declared, -⟩ := ofList_answers textOutput
  rw [answers, answers, answers, answers, size, declared]
  decide +kernel

end WinFloor.Catalog
