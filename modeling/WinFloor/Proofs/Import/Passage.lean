import WinFloor.Proofs.Import.Steps

/-!
What a walk passes. The slots of a table and the entries of a directory each stand in a row that is
followed as long as an item leads on (`row`), and reading depends on nothing but the items of the
row: two readings that agree on those agree (`Table.read_congr`, `directorySymbols_congr`).
-/
namespace WinFloor.Import

open Image

/-- The items of `size` octets one behind the other, from the first up to one that does not lead
on. -/
def row (leadsOn : UInt32 → Bool) (size : Nat) (proper : 0 < size) (first : UInt32) :
    List UInt32 :=
  if leadsOn first then
    match _fits : advance? first size with
    | none => [first]
    | some next => first :: row leadsOn size proper next
  else [first]
termination_by UInt32.size - first.toNat
decreasing_by
  have behind := toNat_of_advance? _fits
  have bound := next.toNat_lt_size
  omega

section
variable {leadsOn leadsOn' : UInt32 → Bool} {size : Nat} {proper : 0 < size}

theorem mem_row_self (first : UInt32) : first ∈ row leadsOn size proper first := by
  rw [row]
  split
  · split <;> simp
  · simp

theorem row_of_next {first next : UInt32} (leads : leadsOn first = true)
    (fits : advance? first size = some next) :
    row leadsOn size proper first = first :: row leadsOn size proper next := by
  rw [row, if_pos leads]
  split
  next none => simp [none] at fits
  next behind some =>
    rw [some] at fits
    cases fits
    rfl

theorem mem_row_of_next {first next address : UInt32} (leads : leadsOn first = true)
    (fits : advance? first size = some next) (behind : address ∈ row leadsOn size proper next) :
    address ∈ row leadsOn size proper first := by
  rw [row_of_next leads fits]
  exact List.mem_cons_of_mem _ behind

/-- Whether an item behind the row leads on does not matter. -/
theorem row_congr {first : UInt32}
    (same : ∀ address ∈ row leadsOn size proper first, leadsOn' address = leadsOn address) :
    row leadsOn' size proper first = row leadsOn size proper first := by
  fun_induction row leadsOn size proper first with
  | case1 first leads last =>
    have leads' : leadsOn' first = true := by rw [same first (by simp), leads]
    rw [row, if_pos leads']
    split
    · rfl
    next some => simp [last] at some
  | case2 first leads next fits ih =>
    have leads' : leadsOn' first = true := by rw [same first (by simp), leads]
    rw [row_of_next leads' fits, ih fun address behind => same address (.tail _ behind)]
  | case3 first stays =>
    have stays' : ¬leadsOn' first = true := by rw [same first (by simp)]; exact stays
    rw [row, if_neg stays']

/-- The row of fewer items that lead on is a part of that of more. -/
theorem mem_row_mono (more : ∀ address, leadsOn address = true → leadsOn' address = true)
    {first address : UInt32} (passed : address ∈ row leadsOn size proper first) :
    address ∈ row leadsOn' size proper first := by
  fun_induction row leadsOn size proper first with
  | case1 first =>
    rw [List.mem_singleton.mp passed]
    exact mem_row_self first
  | case2 first leads next fits ih =>
    rcases List.mem_cons.mp passed with rfl | behind
    · exact mem_row_self address
    · exact mem_row_of_next (more first leads) fits (ih behind)
  | case3 first =>
    rw [List.mem_singleton.mp passed]
    exact mem_row_self first

end

/-! ## Tables -/

def Slot.isSymbol : Slot → Bool
  | symbol _ => true
  | unreadable | last => false

namespace Table

/-- The slots that are read of the table at an address. -/
def slots (v : View) (format : Format) (addressing : Addressing) (table : UInt32) : List UInt32 :=
  if table = 0 then []
  else row (fun a => (slotAt v format addressing a).isSymbol) (slotSize format)
    (slotSize_pos format) table

section
variable {v v' : View} {format : Format} {addressing addressing' : Addressing} {table : UInt32}

theorem readFrom_congr (names : Array SymbolName) {address : UInt32}
    (same : ∀ a ∈ row (fun a => (slotAt v format addressing a).isSymbol) (slotSize format)
      (slotSize_pos format) address,
      slotAt v' format addressing' a = slotAt v format addressing a) :
    readFrom v' format addressing' names address = readFrom v format addressing names address := by
  have here := same address (mem_row_self address)
  fun_induction readFrom v format addressing names address with
  | case1 names address unreadable => rw [readFrom_eq, here, unreadable]
  | case2 names address last => rw [readFrom_eq, here, last]
  | case3 names address name symbol last =>
    rw [readFrom_eq, here, symbol]
    simp only [last]
  | case4 names address name symbol next fits ih =>
    have leads : (slotAt v format addressing address).isSymbol = true := by rw [symbol]; rfl
    have rest := fun a behind => same a (mem_row_of_next leads fits behind)
    rw [readFrom_eq, here, symbol]
    simp only [fits]
    exact ih rest (rest next (mem_row_self next))

theorem read_congr
    (same : ∀ a ∈ slots v format addressing table,
      slotAt v' format addressing' a = slotAt v format addressing a) :
    read v' format addressing' table = read v format addressing table := by
  unfold read
  by_cases none : table = 0
  · rw [if_pos none, if_pos none]
  · rw [slots, if_neg none] at same
    rw [if_neg none, if_neg none, readFrom_congr #[] same]

theorem slots_congr
    (same : ∀ a ∈ slots v format addressing table,
      slotAt v' format addressing' a = slotAt v format addressing a) :
    slots v' format addressing' table = slots v format addressing table := by
  unfold slots at same ⊢
  by_cases none : table = 0
  · rw [if_pos none, if_pos none]
  · rw [if_neg none] at same
    rw [if_neg none, if_neg none]
    exact row_congr fun a passed => by rw [same a passed]

end

end Table

/-! ## Directories -/

section
variable (source : Source) (h : Header) (v : View)

/-- The entry at an address with the name of its module, if both can be read. -/
def moduleAt? (address : UInt32) : Option (String × Entry) :=
  match source.entryAt h v address with
  | .error _ | .ok none => none
  | .ok (some entry) =>
    if entry.moduleName = 0 then none
    else (v.name entry.moduleName).toOption.map (·, entry)

/-- The entries that are read. -/
def entriesRead : List UInt32 :=
  if (source.directory h).isPresent then
    row (fun a => (entryYield source h v a).goesOn) source.entrySize source.entrySize_pos
      (source.directory h).address
  else []

/-- The slots that are read at an entry. -/
def slotsRead (address : UInt32) : List UInt32 :=
  match moduleAt? source h v address with
  | none => []
  | some (_, entry) => Table.slots v h.format entry.addressing entry.symbolTable

/-- What a walk passes until it ends: entries, and the slots at each. -/
def passage : List (UInt32 × List UInt32) :=
  (entriesRead source h v).map fun address => (address, slotsRead source h v address)

theorem moduleAt?_of_entryAt {address : UInt32} {entry : Entry}
    (there : source.entryAt h v address = .ok (some entry)) :
    moduleAt? source h v address =
      if entry.moduleName = 0 then none else (v.name entry.moduleName).toOption.map (·, entry) := by
  rw [moduleAt?, there]

theorem entryYield_eq (address : UInt32) :
    entryYield source h v address =
      match moduleAt? source h v address with
      | none => .none
      | some (moduleName, entry) =>
        let table := Table.read v h.format entry.addressing entry.symbolTable
        ⟨table.names.toList.map (⟨moduleName, ·, source⟩), table.complete⟩ := by
  unfold entryYield moduleAt?
  cases source.entryAt h v address with
  | error f => rfl
  | ok entry? =>
    cases entry? with
    | none => rfl
    | some entry =>
      simp only
      split
      · rfl
      · cases v.name entry.moduleName <;> rfl

end

section
variable {source : Source} {h : Header} {v v' : View}

theorem symbolsFrom_congr {h' : Header} {first : UInt32}
    (same : ∀ a ∈ row (fun a => (entryYield source h v a).goesOn) source.entrySize
      source.entrySize_pos first, entryYield source h' v' a = entryYield source h v a) :
    symbolsFrom source h' v' first = symbolsFrom source h v first := by
  induction first using source.entries_induction with
  | step first ih =>
    rw [symbolsFrom_eq, symbolsFrom_eq source h v, same first (mem_row_self first)]
    congr 1
    split
    next leads =>
      cases fits : advance? first source.entrySize with
      | none => rfl
      | some next =>
        have rest := ih next fits fun a behind => same a (mem_row_of_next leads fits behind)
        simp only [Option.map_some, rest]
    next => rfl

theorem directorySymbols_congr
    (same : ∀ a ∈ entriesRead source h v, entryYield source h v' a = entryYield source h v a) :
    directorySymbols source h v' = directorySymbols source h v := by
  rw [directorySymbols_eq, directorySymbols_eq]
  unfold entriesRead at same
  split
  next present =>
    rw [if_pos present] at same
    exact symbolsFrom_congr same
  next => rfl

theorem entriesRead_congr
    (same : ∀ a ∈ entriesRead source h v, entryYield source h v' a = entryYield source h v a) :
    entriesRead source h v' = entriesRead source h v := by
  unfold entriesRead at same ⊢
  split
  next present =>
    rw [if_pos present] at same
    exact row_congr fun a passed => by rw [same a passed]
  next => rfl

end

end WinFloor.Import
