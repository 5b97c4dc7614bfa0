import WinFloor.Import.Thunk

/-!
The symbols an image needs, from both import directories. A directory is read as far as it can be:
what was read before an unreadable entry, name or slot counts.
-/
namespace WinFloor.Import

open Image

/-- The symbols of a directory from the entry at `address` on, behind those found already. -/
def walkFrom (source : Source) (h : Header) (v : View) (found : Array Symbol) (address : UInt32) :
    Array Symbol :=
  match source.entryAt h v address with
  | .error _ | .ok none => found
  | .ok (some entry) =>
    if entry.moduleName = 0 then found
    else
      match v.name entry.moduleName with
      | .error _ => found
      | .ok moduleName =>
        let table := Table.read v h.format entry.addressing entry.symbolTable
        let found := table.names.foldl (fun found name => found.push ⟨moduleName, name, source⟩) found
        if table.complete then
          match _fits : advance? address source.entrySize with
          | none => found
          | some next => walkFrom source h v found next
        else found
termination_by UInt32.size - address.toNat
decreasing_by
  have step := toNat_of_advance? _fits
  have bound := next.toNat_lt_size
  have : 0 < source.entrySize := by cases source <;> decide
  omega

/-- The symbols of one directory in order, as often as they stand there. -/
def directorySymbols (source : Source) (h : Header) (v : View) : List Symbol :=
  let d := source.directory h
  if d.isPresent then (walkFrom source h v #[] d.address).toList else []

/-- What the image needs: the symbols of the import directory, then those of the delay-load
directory, each once. -/
def walk (data : Octets) (h : Header) : SymbolList :=
  let v := h.view data
  .ofList (directorySymbols .classic h v ++ directorySymbols .delayed h v)

end WinFloor.Import
