import WinFloor.Proofs.Import.Steps
import WinFloor.Proofs.Import.SymbolList

/-!
Walking a file that was cut off. Whatever is still read from the front of a file is what the whole
file has there (`Kept`), so that a table, an entry and a directory each give less, but nothing else
(`Table.Cut`, `Yield.Cut`, `symbolsFrom_take`). The symbols that both directories list put the two
walks apart: a classic import that got lost lets a delayed one with its key come up (`walk_take`).
-/
namespace WinFloor

open Image

/-- What the first reading gives the second gives too. -/
def Kept {α : Type} (cut whole : Except Fault α) : Prop :=
  ∀ a, cut = .ok a → whole = .ok a

namespace Kept

variable {α β : Type} {cut whole : Except Fault α}

theorem bind {next next' : α → Except Fault β} (h : Kept cut whole)
    (rest : ∀ a, Kept (next a) (next' a)) : Kept (cut >>= next) (whole >>= next') := by
  intro b read
  cases first : cut with
  | error f =>
    rw [first] at read
    cases read
  | ok a =>
    rw [first] at read
    rw [h a first]
    exact rest a b read

theorem refl (r : Except Fault α) : Kept r r := fun _ read => read

theorem map (f : α → β) (h : Kept cut whole) : Kept (f <$> cut) (f <$> whole) := by
  rw [map_eq_pure_bind, map_eq_pure_bind]
  exact h.bind fun a => refl _

end Kept

namespace Octets

variable (d : Octets) (k : Nat)

theorem slice_take (offset length : Nat) :
    Kept (slice (d.take k) offset length) (d.slice offset length) := by
  intro s read
  rw [slice_eq_ok_iff] at read ⊢
  obtain ⟨inside, rfl⟩ := read
  simp only [Array.take_eq_extract, Array.size_extract] at inside
  exact ⟨by omega, extract_take (by omega)⟩

theorem number_take (offset width : Nat) :
    Kept (number (d.take k) offset width) (d.number offset width) :=
  (slice_take d k offset width).map _

theorem getElem_take {offset : Nat} (h : offset < (d.take k).size) :
    ∃ inside : offset < d.size, (d.take k)[offset] = d[offset] := by
  simp only [Array.take_eq_extract, Array.size_extract] at h ⊢
  exact ⟨by omega, by simp⟩

theorem zeroFrom?_take {offset stop : Nat} (h : zeroFrom? (d.take k) offset = some stop) :
    d.zeroFrom? offset = some stop := by
  fun_induction zeroFrom? (d.take k) offset with
  | case1 offset inside zero =>
    obtain ⟨inside', same⟩ := getElem_take d k inside
    rw [zeroFrom?, dif_pos inside', if_pos (same ▸ zero), h]
  | case2 offset inside nonzero ih =>
    obtain ⟨inside', same⟩ := getElem_take d k inside
    rw [zeroFrom?, dif_pos inside', if_neg (same ▸ nonzero), ih h]
  | case3 => cases h

/-- A name is read whole or not at all: its zero octet has to be there. -/
theorem name_take (offset : Nat) : Kept (name (d.take k) offset) (d.name offset) := by
  intro text read
  rw [name] at read ⊢
  split at read
  next inside =>
    cases found : zeroFrom? (d.take k) offset with
    | none => simp [found] at read
    | some stop =>
      have before := zeroFrom?_eq_some found
      simp only [Array.take_eq_extract, Array.size_extract] at inside before
      rw [if_pos (by omega), zeroFrom?_take d k found, ← read, found]
      simp only [extract_take (show stop ≤ k by omega)]
  next => cases read

end Octets

namespace Image.View

/-- The view of the first octets of the file. -/
def front (v : View) (k : Nat) : View := ⟨v.data.take k, v.map⟩

theorem slice_front (v : View) (k : Nat) (address : UInt32) (length : Nat) :
    Kept ((v.front k).slice address length) (v.slice address length) :=
  Octets.slice_take v.data k (v.map.offset address) length

theorem name_front (v : View) (k : Nat) (address : UInt32) :
    Kept ((v.front k).name address) (v.name address) :=
  Octets.name_take v.data k (v.map.offset address)

end Image.View

namespace Import

variable (h : Header) (v : View) (k : Nat)

/-! ## Symbol tables -/

theorem slot_front (format : Format) (addressing : Addressing) (thunk : Thunk) :
    thunk.slot (v.front k) format addressing = .unreadable ∨
      thunk.slot (v.front k) format addressing = thunk.slot v format addressing := by
  cases thunk with
  | ordinal number => exact .inr rfl
  | hintName pointer =>
    unfold Thunk.slot
    simp only
    cases (addressing.hintAddress? format pointer).bind (advance? · hintSize) with
    | none => exact .inl rfl
    | some address =>
      simp only
      cases read : (v.front k).name address with
      | error f => exact .inl rfl
      | ok text =>
        rw [v.name_front k address text read]
        exact .inr rfl

theorem slotAt_front (format : Format) (addressing : Addressing) (address : UInt32) :
    slotAt (v.front k) format addressing address = .unreadable ∨
      slotAt (v.front k) format addressing address = slotAt v format addressing address := by
  have kept := Octets.number_take v.data k (v.map.offset address) (slotSize format)
  unfold slotAt
  cases read :
      Octets.number (v.front k).data ((v.front k).map.offset address) (slotSize format) with
  | error f => exact .inl rfl
  | ok value =>
    rw [kept value read]
    cases value with
    | zero => exact .inr rfl
    | succ n => exact slot_front v k format addressing _

/-- A table from a part of a file: the names up to a slot, and all of them if it came to its end. -/
structure Table.Cut (cut whole : Table) : Prop where
  names : cut.names.toList <+: whole.names.toList
  all : cut.complete = true → cut = whole

namespace Table

theorem Cut.refl (t : Table) : Cut t t := ⟨List.prefix_refl _, fun _ => rfl⟩

theorem readFrom_front (format : Format) (addressing : Addressing) (names : Array SymbolName)
    (address : UInt32) :
    Cut (readFrom (v.front k) format addressing names address)
      (readFrom v format addressing names address) := by
  -- Slots that the part still has are those of the whole file, so the two readings keep in step
  -- until the part has no more.
  fun_induction readFrom (v.front k) format addressing names address with
  | case1 names address unreadable =>
    refine ⟨names_prefix_readFrom v format addressing names address, fun ended => ?_⟩
    exact absurd ended Bool.false_ne_true
  | case2 names address last =>
    have same := (slotAt_front v k format addressing address).resolve_left (by simp [last])
    rw [readFrom_eq v, ← same, last]
    exact Cut.refl _
  | case3 names address name symbol fits =>
    have same := (slotAt_front v k format addressing address).resolve_left (by simp [symbol])
    rw [readFrom_eq v, ← same, symbol, fits]
    exact Cut.refl _
  | case4 names address name symbol next fits ih =>
    have same := (slotAt_front v k format addressing address).resolve_left (by simp [symbol])
    rw [readFrom_eq v, ← same, symbol, fits]
    exact ih

theorem read_front (format : Format) (addressing : Addressing) (address : UInt32) :
    Cut (read (v.front k) format addressing address) (read v format addressing address) := by
  rw [read, read]
  split
  · exact Cut.refl _
  · exact readFrom_front v k format addressing #[] address

end Table

/-! ## Directories -/

/-- What an entry adds when a part of the file is read. -/
structure Yield.Cut (cut whole : Yield) : Prop where
  symbols : cut.symbols <+: whole.symbols
  all : cut.goesOn = true → cut = whole

theorem Yield.cut_none (whole : Yield) : Yield.Cut .none whole :=
  ⟨List.nil_prefix, fun ended => absurd ended Bool.false_ne_true⟩

variable (source : Source)

theorem entryAt_front (address : UInt32) :
    Kept (source.entryAt h (v.front k) address) (source.entryAt h v address) := by
  cases source with
  | classic => exact ((v.slice_front k address _).bind fun _ => .refl _).bind fun _ => .refl _
  | delayed => exact ((v.slice_front k address _).bind fun _ => .refl _).bind fun _ => .refl _

theorem entryYield_front (address : UInt32) :
    Yield.Cut (entryYield source h (v.front k) address) (entryYield source h v address) := by
  have entries := entryAt_front h v k source address
  unfold entryYield
  cases read : source.entryAt h (v.front k) address with
  | error f => exact Yield.cut_none _
  | ok entry? =>
    rw [entries entry? read]
    cases entry? with
    | none => exact Yield.cut_none _
    | some entry =>
      simp only
      by_cases unnamed : entry.moduleName = 0
      · rw [if_pos unnamed]
        exact Yield.cut_none _
      · rw [if_neg unnamed, if_neg unnamed]
        cases named : (v.front k).name entry.moduleName with
        | error f => exact Yield.cut_none _
        | ok moduleName =>
          rw [v.name_front k entry.moduleName moduleName named]
          have table := Table.read_front v k h.format entry.addressing entry.symbolTable
          refine ⟨table.names.map _, fun complete => ?_⟩
          simp only [table.all complete]

theorem symbolsFrom_front (address : UInt32) :
    symbolsFrom source h (v.front k) address <+: symbolsFrom source h v address := by
  induction address using source.entries_induction with
  | step address ih =>
    -- The part goes on behind an entry only if the entry gave all that it has.
    have cut := entryYield_front h v k source address
    rw [symbolsFrom_eq, symbolsFrom_eq source h v]
    by_cases goesOn : (entryYield source h (v.front k) address).goesOn = true
    · have same := cut.all goesOn
      rw [same] at goesOn ⊢
      rw [if_pos goesOn, if_pos goesOn, List.prefix_append_right_inj]
      cases fits : advance? address source.entrySize with
      | none => exact List.prefix_refl _
      | some next => exact ih next fits
    · rw [if_neg goesOn, List.append_nil]
      exact cut.symbols.trans (List.prefix_append ..)

theorem directorySymbols_front :
    directorySymbols source h (v.front k) <+: directorySymbols source h v := by
  rw [directorySymbols_eq, directorySymbols_eq source h v]
  split
  · exact symbolsFrom_front h v k source _
  · exact List.prefix_refl _

/-! ## The walk -/

theorem filter_classic_walk (data : Octets) :
    (walk data h).toList.filter (·.source = .classic) =
      firsts (directorySymbols .classic h (h.view data)) := by
  have classic : ∀ s ∈ firsts (directorySymbols .classic h (h.view data)),
      decide (s.source = .classic) = true := by
    intro s listed
    exact decide_eq_true (source_of_mem_directorySymbols _ _ _ (mem_of_mem_firsts listed))
  have delayed : ∀ s ∈ firsts ((directorySymbols .delayed h (h.view data)).filter
      fun t => t.key ∉ (directorySymbols .classic h (h.view data)).map Symbol.key),
      ¬decide (s.source = .classic) = true := by
    intro s listed
    have found := (List.mem_filter.mp (mem_of_mem_firsts listed)).1
    rw [source_of_mem_directorySymbols _ _ _ found]
    decide
  simp only [walk]
  rw [SymbolList.toList_ofList, firsts_append, List.filter_append, List.filter_eq_self.mpr classic,
    List.filter_eq_nil_iff.mpr delayed, List.append_nil]

/-- Cutting a file off loses imports from the end of each directory and alters none. The classic
imports that are left are the first ones of the whole file. A delayed import that is left stands in
the delay directory of the whole file, which lists it, or in its place a classic one. -/
theorem walk_take (data : Octets) :
    ((walk (data.take k) h).toList.filter (·.source = .classic) <+:
      (walk data h).toList.filter (·.source = .classic)) ∧
    ∀ s ∈ (walk (data.take k) h).toList,
      s ∈ directorySymbols s.source h (h.view data) ∧
      ∃ t ∈ (walk data h).toList, t.key = s.key ∧
        (t = s ∨ s.source = .delayed ∧ t.source = .classic) := by
  have classic : directorySymbols .classic h (h.view (data.take k)) <+: _ :=
    directorySymbols_front h (h.view data) k .classic
  have delayed : directorySymbols .delayed h (h.view (data.take k)) <+: _ :=
    directorySymbols_front h (h.view data) k .delayed
  constructor
  · rw [filter_classic_walk, filter_classic_walk]
    exact firsts_mono classic
  · intro s listed
    rw [walk, SymbolList.toList_ofList] at listed
    simp only [walk, SymbolList.toList_ofList]
    rcases mem_firsts_append.mp listed with inClassic | ⟨inDelayed, -⟩
    · have whole := (firsts_mono classic).subset inClassic
      have source := source_of_mem_directorySymbols _ _ _ (mem_of_mem_firsts whole)
      rw [source]
      exact ⟨mem_of_mem_firsts whole, s, mem_firsts_append.mpr (.inl whole), rfl, .inl rfl⟩
    · have whole := (firsts_mono delayed).subset inDelayed
      have source := source_of_mem_directorySymbols _ _ _ (mem_of_mem_firsts whole)
      rw [source]
      refine ⟨mem_of_mem_firsts whole, ?_⟩
      by_cases known : s.key ∈ (directorySymbols .classic h (h.view data)).map Symbol.key
      · -- The cut took the classic import that comes before this one in the whole file.
        obtain ⟨t, first, same⟩ := List.mem_map.mp (mem_keys_firsts.mpr known)
        have classicSource := source_of_mem_directorySymbols _ _ _ (mem_of_mem_firsts first)
        exact ⟨t, mem_firsts_append.mpr (.inl first), same, .inr ⟨rfl, classicSource⟩⟩
      · exact ⟨s, mem_firsts_append.mpr (.inr ⟨whole, known⟩), rfl, .inl rfl⟩

end Import

end WinFloor
