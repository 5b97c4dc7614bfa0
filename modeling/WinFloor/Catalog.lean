import Std.Data.HashMap
import WinFloor.Declaration
import WinFloor.ModuleName

/-!
The catalog of declared functions. It answers for a function under every usual spelling: whatever
the case, with the extension of the module or without it, and with the letter that marks the
character set of a function or without it.
-/
namespace WinFloor

namespace SymbolStem

/-- The letters for the narrow and the wide character set. -/
def isCharsetLetter (c : Char) : Bool := c == 'A' || c == 'W'

/-- A name without its last letter, if that is a character set letter and not all of the name. -/
def stem? (symbol : String) : Option String :=
  match symbol.toList.reverse with
  | c :: rest => if isCharsetLetter c && !rest.isEmpty then some (String.ofList rest.reverse) else none
  | [] => none

/-- The name as it is, and its stem if it has one. -/
def variants (symbol : String) : List String :=
  symbol :: (stem? symbol).toList

end SymbolStem

/-- What is known under each key, and how many declarations went in. -/
structure Catalog where
  entries : Std.HashMap String Declaration
  declared : Nat

namespace Catalog

def empty : Catalog := ⟨∅, 0⟩

/-- One spelling of a function, case set aside. -/
def key (moduleName symbol : String) : String :=
  Text.lowercase (moduleName ++ "!" ++ symbol)

/-- The keys a declaration is known under. -/
def keys (moduleName symbol : String) : List String :=
  (ModuleName.variants moduleName).flatMap fun m => (SymbolStem.variants symbol).map (key m)

/-- The keys that are tried for a function, in this order: the name before its stem, and each with
the module as it is before the other form of the module. -/
def probes (moduleName symbol : String) : List String :=
  (SymbolStem.variants symbol).flatMap fun s => (ModuleName.variants moduleName).map (key · s)

/-- Makes a declaration known under a key, unless one that needs as much is known already. -/
def record (entries : Std.HashMap String Declaration) (d : Declaration) (key : String) :
    Std.HashMap String Declaration :=
  match entries[key]? with
  | some known => if known.build < d.build then entries.insert key d else entries
  | none => entries.insert key d

def insert (c : Catalog) (d : Declaration) : Catalog :=
  { entries := (keys d.moduleName d.symbol).foldl (record · d) c.entries
    declared := c.declared + 1 }

def ofList (declarations : List Declaration) : Catalog :=
  declarations.foldl insert empty

/-- The declaration known for a function. -/
def lookup (c : Catalog) (moduleName symbol : String) : Option Declaration :=
  (probes moduleName symbol).findSome? (c.entries[·]?)

/-- The number of keys. -/
def size (c : Catalog) : Nat := c.entries.size

def isEmpty (c : Catalog) : Bool := c.entries.isEmpty

theorem getElem?_record (entries : Std.HashMap String Declaration) (d : Declaration)
    (key other : String) :
    (record entries d key)[other]? =
      if key = other then
        match entries[key]? with
        | some known => some (if known.build < d.build then d else known)
        | none => some d
      else entries[other]? := by
  unfold record
  by_cases same : key = other
  · subst same
    cases found : entries[key]? with
    | none => simp
    | some known =>
      by_cases higher : known.build < d.build <;> simp [higher, found]
  · simp only [same, ↓reduceIte]
    split
    · split
      · simp [Std.HashMap.getElem?_insert, same]
      · rfl
    · simp [Std.HashMap.getElem?_insert, same]

theorem declared_ofList (ds : List Declaration) : (ofList ds).declared = ds.length := by
  have grows (c : Catalog) : (ds.foldl insert c).declared = c.declared + ds.length := by
    induction ds generalizing c with
    | nil => rfl
    | cons d ds ih =>
      rw [List.foldl_cons, ih, List.length_cons]
      simp only [insert]
      omega
  simpa [ofList, empty] using grows empty

end Catalog

end WinFloor
