import Std.Data.HashSet
import WinFloor.ModuleName

/-!
What an image needs from other modules: symbols by name or by number, listed once each.
-/
namespace WinFloor.Import

/-- How a module offers a symbol. -/
inductive SymbolName
  | named (text : String)
  | ordinal (number : UInt16)
  deriving DecidableEq, Repr

namespace SymbolName

def text? : SymbolName → Option String
  | named text => some text
  | ordinal _ => none

def display : SymbolName → String
  | named text => text
  | ordinal number => s!"#{number.toNat}"

end SymbolName

/-- The two import directories: bound when the image is loaded, or at the first call. -/
inductive Source
  | classic
  | delayed
  deriving DecidableEq, Repr

/-- A symbol of another module, with the module's name as the image spells it. -/
structure Symbol where
  moduleName : String
  name : SymbolName
  source : Source
  deriving DecidableEq, Repr

namespace Symbol

def display (s : Symbol) : String :=
  s!"{s.moduleName}!{s.name.display}"

/-- Two symbols with one key are the same one, whatever their spelling and source. -/
def key (s : Symbol) : String × String :=
  (ModuleName.normalize s.moduleName, Text.lowerAscii s.name.display)

end Symbol

/-- Symbols in the order in which they were first met, and the keys of all of them. -/
structure SymbolList where
  symbols : Array Symbol
  keys : Std.HashSet (String × String)

namespace SymbolList

def empty : SymbolList := ⟨#[], ∅⟩

def size (l : SymbolList) : Nat := l.symbols.size

/-- Whether the symbol, in whatever spelling, is listed. -/
def holds (l : SymbolList) (s : Symbol) : Bool :=
  l.keys.contains s.key

/-- Lists a symbol unless it is listed already. -/
def push (l : SymbolList) (s : Symbol) : SymbolList :=
  if l.holds s then l else ⟨l.symbols.push s, l.keys.insert s.key⟩

/-- Lists a symbol unless it is listed already, and says whether it was new. -/
def pushIfNew (l : SymbolList) (s : Symbol) : Bool × SymbolList :=
  if l.holds s then (false, l) else (true, ⟨l.symbols.push s, l.keys.insert s.key⟩)

def append (l : SymbolList) (symbols : List Symbol) : SymbolList :=
  symbols.foldl push l

def ofList (symbols : List Symbol) : SymbolList :=
  empty.append symbols

def toList (l : SymbolList) : List Symbol := l.symbols.toList

/-- How many of the symbols came from a directory. -/
def countFrom (l : SymbolList) (source : Source) : Nat :=
  l.toList.countP (·.source = source)

@[simp] theorem toList_empty : empty.toList = [] := rfl

theorem toList_push (l : SymbolList) (s : Symbol) :
    (l.push s).toList = if l.holds s then l.toList else l.toList ++ [s] := by
  unfold push
  split <;> simp [toList]

theorem pushIfNew_eq (l : SymbolList) (s : Symbol) : l.pushIfNew s = (!l.holds s, l.push s) := by
  unfold pushIfNew push
  split
  next listed => rw [listed, Bool.not_true]
  next new => rw [Bool.not_eq_true] at new; rw [new, Bool.not_false]

theorem holds_push (l : SymbolList) (s t : Symbol) :
    (l.push s).holds t = (s.key == t.key || l.holds t) := by
  unfold push
  split
  next listed =>
    by_cases same : s.key = t.key
    · simp [holds, ← same] at listed ⊢
      simp [listed]
    · simp [same]
  next => simp [holds]

theorem append_append (l : SymbolList) (a b : List Symbol) :
    l.append (a ++ b) = (l.append a).append b := by
  simp [append]

theorem ofList_append (a b : List Symbol) : ofList (a ++ b) = (ofList a).append b :=
  append_append ..

end SymbolList

end WinFloor.Import
