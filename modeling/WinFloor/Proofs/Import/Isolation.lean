import WinFloor.Proofs.Import.Passage
import WinFloor.Proofs.Import.SymbolList

/-!
The two import directories do not disturb each other. A walk may as well list every symbol as soon as
it has read it, in one list for both directories: what the list holds by then has no say in what is
read (`listFrom_eq`), so that it comes to the same list (`walk_eq_listing`). So each directory gives
what it gives by itself, and of the symbols with one key the classic one is listed
(`walk_isolated`).
-/
namespace WinFloor.Import

open Image

/-! ## Listing while reading -/

/-- Lists the symbols of a table from the slot at `address` on, and says whether the table was read
to its end. -/
def listTable (v : View) (format : Format) (addressing : Addressing) (symbol : SymbolName → Symbol)
    (l : SymbolList) (address : UInt32) : SymbolList × Bool :=
  match slotAt v format addressing address with
  | .unreadable => (l, false)
  | .last => (l, true)
  | .symbol name =>
    match _fits : advance? address (slotSize format) with
    | none => (l.push (symbol name), false)
    | some next => listTable v format addressing symbol (l.push (symbol name)) next
termination_by UInt32.size - address.toNat
decreasing_by
  have step := toNat_of_advance? _fits
  have bound := next.toNat_lt_size
  have := slotSize_pos format
  omega

/-- Lists the symbols of a directory from the entry at `address` on. -/
def listFrom (source : Source) (h : Header) (v : View) (l : SymbolList) (address : UInt32) :
    SymbolList :=
  match source.entryAt h v address with
  | .error _ | .ok none => l
  | .ok (some entry) =>
    if entry.moduleName = 0 then l
    else
      match v.name entry.moduleName with
      | .error _ => l
      | .ok moduleName =>
        let (l, complete) :=
          if entry.symbolTable = 0 then (l, true)
          else listTable v h.format entry.addressing (⟨moduleName, ·, source⟩) l entry.symbolTable
        if complete then
          match _fits : advance? address source.entrySize with
          | none => l
          | some next => listFrom source h v l next
        else l
termination_by UInt32.size - address.toNat
decreasing_by
  have step := toNat_of_advance? _fits
  have bound := next.toNat_lt_size
  have := source.entrySize_pos
  omega

def listDirectory (source : Source) (h : Header) (v : View) (l : SymbolList) : SymbolList :=
  let d := source.directory h
  if d.isPresent then listFrom source h v l d.address else l

/-- Both directories, one after the other into one list. -/
def listing (data : Octets) (h : Header) : SymbolList :=
  let v := h.view data
  listDirectory .delayed h v (listDirectory .classic h v .empty)

section
variable (v : View) (format : Format) (addressing : Addressing) (symbol : SymbolName → Symbol)

/-- The names that the table has given by now are listed, whatever there was before them. -/
theorem listTable_eq_readFrom (l : SymbolList) (names : Array SymbolName) (address : UInt32) :
    listTable v format addressing symbol (l.append (names.toList.map symbol)) address =
      let table := Table.readFrom v format addressing names address
      (l.append (table.names.toList.map symbol), table.complete) := by
  have next (names : Array SymbolName) (name : SymbolName) :
      (l.append (names.toList.map symbol)).push (symbol name) =
        l.append ((names.push name).toList.map symbol) := by
    rw [Array.toList_push, List.map_append, SymbolList.append_append]
    rfl
  -- Slot by slot the two readings take the same way: neither looks at what it has by then.
  fun_induction Table.readFrom v format addressing names address with
  | case1 names address unreadable => rw [listTable, unreadable]
  | case2 names address last => rw [listTable, last]
  | case3 names address name here fits =>
    rw [listTable, here]
    simp only [next]
    split
    · rfl
    next fits' => simp [fits] at fits'
  | case4 names address name here behind fits ih =>
    rw [listTable, here]
    simp only [next]
    split
    next fits' => simp [fits] at fits'
    next behind' fits' =>
      rw [fits] at fits'
      cases fits'
      exact ih

end

section
variable (source : Source) (h : Header) (v : View)

/-- Where the listing goes from an entry, with what it has listed by then. -/
theorem listFrom_step (l : SymbolList) (address : UInt32) :
    listFrom source h v l address =
      if (entryYield source h v address).goesOn then
        match advance? address source.entrySize with
        | none => l.append (entryYield source h v address).symbols
        | some next => listFrom source h v (l.append (entryYield source h v address).symbols) next
      else l.append (entryYield source h v address).symbols := by
  rw [listFrom, entryYield]
  cases source.entryAt h v address with
  | error f => rfl
  | ok entry? =>
    cases entry? with
    | none => rfl
    | some entry =>
      simp only
      by_cases unnamed : entry.moduleName = 0
      · simp only [unnamed]
        rfl
      · rw [if_neg unnamed, if_neg unnamed]
        cases v.name entry.moduleName with
        | error f => rfl
        | ok moduleName =>
          have table : (if entry.symbolTable = 0 then (l, true)
              else listTable v h.format entry.addressing (⟨moduleName, ·, source⟩) l
                entry.symbolTable) =
              (l.append ((Table.read v h.format entry.addressing entry.symbolTable).names.toList.map
                (⟨moduleName, ·, source⟩)),
              (Table.read v h.format entry.addressing entry.symbolTable).complete) := by
            rw [Table.read]
            split
            · rfl
            · exact listTable_eq_readFrom v h.format entry.addressing _ l #[] entry.symbolTable
          simp only [table]
          split
          next =>
            split
            next fits => rw [fits]
            next behind fits => rw [fits]
          next => rfl

/-- What is listed already has no say in what is read. -/
theorem listFrom_eq (l : SymbolList) (address : UInt32) :
    listFrom source h v l address = l.append (symbolsFrom source h v address) := by
  induction address using source.entries_induction generalizing l with
  | step address ih =>
    rw [listFrom_step, symbolsFrom_eq, SymbolList.append_append]
    split
    next =>
      cases fits : advance? address source.entrySize with
      | none => rfl
      | some next => exact ih next fits _
    next => rfl

theorem listDirectory_eq (l : SymbolList) :
    listDirectory source h v l = l.append (directorySymbols source h v) := by
  rw [listDirectory, directorySymbols_eq]
  split
  · exact listFrom_eq source h v l _
  · rfl

end

theorem walk_eq_listing (data : Octets) (h : Header) : walk data h = listing data h := by
  rw [listing, listDirectory_eq, listDirectory_eq, ← SymbolList.append_append]
  rfl

/-! ## One directory alone -/

/-- Where a directory has its place among those of the header. -/
def Source.place : Source → Nat
  | .classic => importDirectory
  | .delayed => delayImportDirectory

/-- The header of an image that lacks one of its import directories. -/
def without (h : Header) (source : Source) : Header :=
  { h with directories := h.directories.set source.place .empty }

section
variable (h : Header) (v : View)

theorem Source.directory_eq (source : Source) :
    source.directory h = h.directories.getD source.place .empty := by
  cases source <;> rfl

theorem isPresent_directory_without (source : Source) :
    (source.directory (without h source)).isPresent = false := by
  rw [Source.directory_eq, without, List.getD_eq_getElem?_getD, List.getElem?_set_self']
  cases h.directories[source.place]? <;> rfl

theorem directory_without {source other : Source} (apart : source ≠ other) :
    source.directory (without h other) = source.directory h := by
  have places : other.place ≠ source.place := by
    cases source <;> cases other <;> first | exact absurd rfl apart | decide
  rw [Source.directory_eq, Source.directory_eq, without, List.getD_eq_getElem?_getD,
    List.getElem?_set_ne places, List.getD_eq_getElem?_getD]

/-- Directories do not count for reading at an address. -/
theorem entryYield_without (source other : Source) (address : UInt32) :
    entryYield source (without h other) v address = entryYield source h v address := by
  have entry : source.entryAt (without h other) v address = source.entryAt h v address := by
    cases source <;> rfl
  rw [entryYield, entry]
  rfl

theorem directorySymbols_without_self (source : Source) :
    directorySymbols source (without h source) v = [] := by
  rw [directorySymbols_eq, isPresent_directory_without]
  rfl

theorem directorySymbols_without {source other : Source} (apart : source ≠ other) :
    directorySymbols source (without h other) v = directorySymbols source h v := by
  rw [directorySymbols_eq, directorySymbols_eq, directory_without h apart,
    symbolsFrom_congr fun address _ => entryYield_without h v source other address]

end

theorem toList_walk (data : Octets) (h : Header) :
    (walk data h).toList =
      firsts (directorySymbols .classic h (h.view data) ++
        directorySymbols .delayed h (h.view data)) :=
  SymbolList.toList_ofList _

theorem walk_without_delayed (data : Octets) (h : Header) :
    (walk data (without h .delayed)).toList =
      firsts (directorySymbols .classic h (h.view data)) := by
  have view : (without h .delayed).view data = h.view data := rfl
  rw [toList_walk, view, directorySymbols_without_self, directorySymbols_without h _ (by decide),
    List.append_nil]

theorem walk_without_classic (data : Octets) (h : Header) :
    (walk data (without h .classic)).toList =
      firsts (directorySymbols .delayed h (h.view data)) := by
  have view : (without h .classic).view data = h.view data := rfl
  rw [toList_walk, view, directorySymbols_without_self, directorySymbols_without h _ (by decide),
    List.nil_append]

/-- A walk lists what the image needs without its delay-load directory, and behind it what it needs
without its import directory, apart from the keys that are there already. It is one list for both
from the start, and yet no key that one directory gives by itself gets lost, whatever the other
holds. -/
theorem walk_isolated (data : Octets) (h : Header) :
    let classic := (walk data (without h .delayed)).toList
    let delayed := (walk data (without h .classic)).toList
    walk data h = listing data h ∧
    (walk data h).toList =
      classic ++ delayed.filter (fun s => s.key ∉ classic.map Symbol.key) ∧
    ∀ key, key ∈ (walk data h).toList.map Symbol.key ↔
      key ∈ classic.map Symbol.key ∨ key ∈ delayed.map Symbol.key := by
  intro classic delayed
  have first : classic = firsts (directorySymbols .classic h (h.view data)) :=
    walk_without_delayed data h
  have second : delayed = firsts (directorySymbols .delayed h (h.view data)) :=
    walk_without_classic data h
  refine ⟨walk_eq_listing data h, ?_, fun key => ?_⟩
  · simp only [toList_walk, first, second, mem_keys_firsts]
    rw [firsts_append,
      firsts_filter (· ∉ (directorySymbols .classic h (h.view data)).map Symbol.key)]
  · rw [toList_walk, first, second, mem_keys_firsts, mem_keys_firsts, mem_keys_firsts,
      List.map_append, List.mem_append]

end WinFloor.Import
