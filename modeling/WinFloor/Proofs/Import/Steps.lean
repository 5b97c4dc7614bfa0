import WinFloor.Import.Walk

/-!
A walk step by step: what is done at one slot of a symbol table (`Table.readFrom_eq`), and what one
entry of a directory adds to the symbols of those behind it (`symbolsFrom_eq`).
-/
namespace WinFloor.Import

open Image

theorem slotSize_pos (format : Format) : 0 < slotSize format := by
  cases format <;> decide

namespace Table

theorem readFrom_eq (v : View) (format : Format) (addressing : Addressing)
    (names : Array SymbolName) (address : UInt32) :
    readFrom v format addressing names address =
      match slotAt v format addressing address with
      | .unreadable => ⟨names, false⟩
      | .last => ⟨names, true⟩
      | .symbol name =>
        match advance? address (slotSize format) with
        | none => ⟨names.push name, false⟩
        | some next => readFrom v format addressing (names.push name) next := by
  rw [readFrom]
  cases slotAt v format addressing address with
  | unreadable => rfl
  | last => rfl
  | symbol name =>
    simp only
    split
    next fits => rw [fits]
    next behind fits => rw [fits]

/-- The names read before stay in front. -/
theorem names_prefix_readFrom (v : View) (format : Format) (addressing : Addressing)
    (names : Array SymbolName) (address : UInt32) :
    names.toList <+: (readFrom v format addressing names address).names.toList := by
  fun_induction readFrom v format addressing names address with
  | case1 => exact List.prefix_refl _
  | case2 => exact List.prefix_refl _
  | case3 => simp
  | case4 names address name _ next _ ih =>
    rw [Array.toList_push] at ih
    exact (List.prefix_append ..).trans ih

end Table

theorem Source.entrySize_pos (source : Source) : 0 < source.entrySize := by
  cases source <;> decide

/-- What holds of an entry if it holds of the one behind it holds of all entries. -/
theorem Source.entries_induction (source : Source) {motive : UInt32 → Prop}
    (step : ∀ address,
      (∀ next, advance? address source.entrySize = some next → motive next) → motive address)
    (address : UInt32) : motive address := by
  refine step address fun next fits => ?_
  exact Source.entries_induction source step next
termination_by UInt32.size - address.toNat
decreasing_by
  have behind := toNat_of_advance? fits
  have bound := next.toNat_lt_size
  have := source.entrySize_pos
  omega

/-- What an entry adds: its symbols, and whether the directory is read on behind it. -/
structure Yield where
  symbols : List Symbol
  goesOn : Bool
  deriving DecidableEq, Repr

def Yield.none : Yield := ⟨[], false⟩

section
variable (source : Source) (h : Header) (v : View)

/-- What the entry at an address adds. -/
def entryYield (address : UInt32) : Yield :=
  match source.entryAt h v address with
  | .error _ | .ok none => .none
  | .ok (some entry) =>
    if entry.moduleName = 0 then .none
    else
      match v.name entry.moduleName with
      | .error _ => .none
      | .ok moduleName =>
        let table := Table.read v h.format entry.addressing entry.symbolTable
        ⟨table.names.toList.map (⟨moduleName, ·, source⟩), table.complete⟩

/-- The symbols of a directory from the entry at an address on. -/
def symbolsFrom (address : UInt32) : List Symbol :=
  (walkFrom source h v #[] address).toList

theorem foldl_push_eq (moduleName : String) (names : Array SymbolName) (found : Array Symbol) :
    names.foldl (fun found name => found.push ⟨moduleName, name, source⟩) found =
      found ++ (names.toList.map (⟨moduleName, ·, source⟩)).toArray := by
  rw [← Array.foldl_toList]
  induction names.toList generalizing found with
  | nil => simp
  | cons name names ih =>
    rw [List.foldl_cons, ih, List.map_cons]
    simp

/-- Where the walk goes from an entry, with what it has found by then. -/
theorem walkFrom_step (found : Array Symbol) (address : UInt32) :
    walkFrom source h v found address =
      if (entryYield source h v address).goesOn then
        match advance? address source.entrySize with
        | none => found ++ (entryYield source h v address).symbols.toArray
        | some next =>
          walkFrom source h v (found ++ (entryYield source h v address).symbols.toArray) next
      else found ++ (entryYield source h v address).symbols.toArray := by
  rw [walkFrom, entryYield]
  cases source.entryAt h v address with
  | error f => simp [Yield.none]
  | ok entry? =>
    cases entry? with
    | none => simp [Yield.none]
    | some entry =>
      simp only
      by_cases unnamed : entry.moduleName = 0
      · simp [unnamed, Yield.none]
      · rw [if_neg unnamed, if_neg unnamed]
        cases v.name entry.moduleName with
        | error f => simp [Yield.none]
        | ok moduleName =>
          simp only [foldl_push_eq]
          by_cases complete :
              (Table.read v h.format entry.addressing entry.symbolTable).complete = true
          · rw [if_pos complete, if_pos complete]
            split
            next fits => rw [fits]
            next behind fits => rw [fits]
          · rw [if_neg complete, if_neg complete]

/-- What was found before stays in front. -/
theorem toList_walkFrom (found : Array Symbol) (address : UInt32) :
    (walkFrom source h v found address).toList =
      found.toList ++ symbolsFrom source h v address := by
  induction address using source.entries_induction generalizing found with
  | step address ih =>
    rw [symbolsFrom, walkFrom_step, walkFrom_step source h v #[]]
    by_cases goesOn : (entryYield source h v address).goesOn = true
    · rw [if_pos goesOn, if_pos goesOn]
      cases fits : advance? address source.entrySize with
      | none => simp
      | some next =>
        simp only
        rw [ih next fits, ih next fits (#[] ++ _)]
        simp
    · rw [if_neg goesOn, if_neg goesOn]
      simp

/-- The symbols of an entry come before those of the entries behind it. -/
theorem symbolsFrom_eq (address : UInt32) :
    symbolsFrom source h v address =
      (entryYield source h v address).symbols ++
        if (entryYield source h v address).goesOn then
          ((advance? address source.entrySize).map (symbolsFrom source h v)).getD []
        else [] := by
  rw [symbolsFrom, walkFrom_step]
  by_cases goesOn : (entryYield source h v address).goesOn = true
  · rw [if_pos goesOn, if_pos goesOn]
    cases advance? address source.entrySize with
    | none => simp
    | some next => simp [toList_walkFrom]
  · rw [if_neg goesOn, if_neg goesOn]
    simp

theorem directorySymbols_eq :
    directorySymbols source h v =
      if (source.directory h).isPresent then symbolsFrom source h v (source.directory h).address
      else [] :=
  rfl

theorem source_of_mem_entryYield (address : UInt32) {s : Symbol}
    (added : s ∈ (entryYield source h v address).symbols) : s.source = source := by
  rw [entryYield] at added
  split at added
  · cases added
  · cases added
  · split at added
    · cases added
    · split at added
      · cases added
      · obtain ⟨name, -, rfl⟩ := List.mem_map.mp added
        rfl

theorem source_of_mem_symbolsFrom (address : UInt32) {s : Symbol}
    (found : s ∈ symbolsFrom source h v address) : s.source = source := by
  induction address using source.entries_induction with
  | step address ih =>
    rw [symbolsFrom_eq] at found
    rcases List.mem_append.mp found with here | behind
    · exact source_of_mem_entryYield source h v address here
    · split at behind
      · cases fits : advance? address source.entrySize with
        | none => simp [fits] at behind
        | some next =>
          rw [fits] at behind
          exact ih next fits behind
      · cases behind

theorem source_of_mem_directorySymbols {s : Symbol} (found : s ∈ directorySymbols source h v) :
    s.source = source := by
  rw [directorySymbols_eq] at found
  split at found
  · exact source_of_mem_symbolsFrom source h v _ found
  · cases found

end

end WinFloor.Import
